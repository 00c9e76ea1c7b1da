/-
  Letter case put aside: which code points differ in letter case only. Most letters go in pairs, a
  capital and its lower-case form. Some classes are larger, because the Kelvin sign is one of the
  `k`s and the final sigma one of the sigmas, and `İ`, whose lower-case form is `i`, is alone.
-/
import MarkupLint.Text.LowerCase

namespace MarkupLint.CaseFold

/-- The classes that are not a letter with its lower-case form. -/
def classes : List (List Nat) := [
  [0x49, 0x69], [0x4B, 0x6B, 0x212A], [0x53, 0x73, 0x17F], [0xB5, 0x39C, 0x3BC],
  [0xC5, 0xE5, 0x212B], [0x130], [0x1C4, 0x1C5, 0x1C6], [0x1C7, 0x1C8, 0x1C9],
  [0x1CA, 0x1CB, 0x1CC], [0x1F1, 0x1F2, 0x1F3], [0x345, 0x399, 0x3B9, 0x1FBE], [0x390, 0x1FD3],
  [0x392, 0x3B2, 0x3D0], [0x395, 0x3B5, 0x3F5], [0x398, 0x3B8, 0x3D1, 0x3F4],
  [0x39A, 0x3BA, 0x3F0], [0x3A0, 0x3C0, 0x3D6], [0x3A1, 0x3C1, 0x3F1], [0x3A3, 0x3C2, 0x3C3],
  [0x3A6, 0x3C6, 0x3D5], [0x3A9, 0x3C9, 0x2126], [0x3B0, 0x1FE3], [0x412, 0x432, 0x1C80],
  [0x414, 0x434, 0x1C81], [0x41E, 0x43E, 0x1C82], [0x421, 0x441, 0x1C83],
  [0x422, 0x442, 0x1C84, 0x1C85], [0x42A, 0x44A, 0x1C86], [0x462, 0x463, 0x1C87],
  [0x1C88, 0xA64A, 0xA64B], [0x1E60, 0x1E61, 0x1E9B], [0xFB05, 0xFB06]]

/-- The code points whose lower-case form is `n`. -/
def capitals (n : Nat) : List Nat :=
  if n < 128 then if 97 ≤ n && n ≤ 122 then [n - 32] else []
  else
    LowerCase.runs.filterMap fun (first, last, step, distance) =>
      let m := ((n : Int) - distance).toNat
      if distance ≤ n && first ≤ m && m ≤ last && (m - first) % step == 0 then some m else none

/-- The code points that differ from `n` in letter case only, `n` included. -/
def variants (n : Nat) : List Nat :=
  match classes.find? (·.contains n) with
  | some k => k
  | none => n :: LowerCase.ofCode n :: capitals n

example : variants 'σ'.toNat = ['Σ', 'ς', 'σ'].map Char.toNat := by decide +kernel
example : variants 'é'.toNat = ['é', 'é', 'É'].map Char.toNat := by decide +kernel

end MarkupLint.CaseFold
