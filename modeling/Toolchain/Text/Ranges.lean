namespace Toolchain.Text

abbrev Ranges := List (Nat × Nat)

def Ranges.has (r : Ranges) (c : Char) : Bool :=
  r.any fun (lo, hi) => lo ≤ c.toNat && c.toNat ≤ hi

theorem Ranges.has_iff (r : Ranges) (c : Char) :
    r.has c = true ↔ ∃ p ∈ r, p.1 ≤ c.toNat ∧ c.toNat ≤ p.2 := by
  simp [Ranges.has]

end Toolchain.Text
