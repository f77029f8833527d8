namespace Toolchain.Text

def hexDigit (n : Nat) : Char := Nat.digitChar (n % 16)

def hex : (width : Nat) → (n : Nat) → List Char
  | 0, _ => []
  | w + 1, n => hex w (n / 16) ++ [hexDigit n]

theorem length_hex (w n : Nat) : (hex w n).length = w := by
  induction w generalizing n with
  | zero => rfl
  | succ w ih => simp [hex, ih]

def hexValue? (c : Char) : Option Nat :=
  if '0' ≤ c && c ≤ '9' then some (c.toNat - 48)
  else if 'a' ≤ c && c ≤ 'f' then some (c.toNat - 87)
  else if 'A' ≤ c && c ≤ 'F' then some (c.toNat - 55)
  else none

def readDigits? (base : Nat) (ds : List Char) : Option Nat :=
  ds.foldlM (fun n c =>
    match hexValue? c with
    | some d => if d < base then some (base * n + d) else none
    | none => none) 0

end Toolchain.Text
