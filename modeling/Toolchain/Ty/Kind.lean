import Toolchain.Ty.Basic

namespace Toolchain

inductive Kind where
  | star
  | arrow (left right : Kind)
  deriving Repr

namespace Kind

def beq : Kind → Kind → Bool
  | .star, .star => true
  | .arrow k r, .arrow l s => beq k l && beq r s
  | _, _ => false

theorem beq_iff (k : Kind) : ∀ l, beq k l = true ↔ k = l := by
  induction k with
  | star => intro l; cases l <;> simp [beq]
  | arrow k r ihk ihr => intro l; cases l <;> simp [beq, ihk, ihr]

instance : DecidableEq Kind := fun k l => decidable_of_iff _ (beq_iff k l)

def render : Kind → String
  | .star => "*"
  | .arrow .star r => "* -> " ++ render r
  | .arrow (.arrow a b) r => "(" ++ render (.arrow a b) ++ ") -> " ++ render r

def ofList : List Kind → Kind
  | [] => .star
  | [k] => k
  | k :: l :: ks => .arrow k (ofList (l :: ks))

def unary : Kind := ofList [.star, .star]

def binary : Kind := ofList [.star, .star, .star]

end Kind

def Ty.kind : Ty → Option Kind
  | .absent => none
  | .con _ | .var _ | .product _ | .sum _ | .tuple _ | .generic _ [] => some .star
  | .generic _ (_ :: _) | .func _ _ | .unary _ _ => some Kind.unary
  | .binary _ _ _ => some Kind.binary

end Toolchain
