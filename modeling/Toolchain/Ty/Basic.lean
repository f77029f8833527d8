namespace Toolchain

inductive Unary where
  | vec
  | set
  | option
  | task
  deriving DecidableEq, Repr

inductive Binary where
  | map
  | result
  deriving DecidableEq, Repr

/-- A type expression; `absent` stands where a component is missing. -/
inductive Ty where
  | absent
  | con (name : String)
  | var (name : String)
  | generic (name : String) (args : List Ty)
  | product (elements : List Ty)
  | sum (members : List Ty)
  | tuple (elements : List Ty)
  | func (params : List Ty) (result : Ty)
  | unary (c : Unary) (inner : Ty)
  | binary (c : Binary) (first second : Ty)
  deriving Repr, Inhabited

namespace Ty

@[induction_eliminator]
theorem ind {motive : Ty → Prop}
    (absent : motive .absent)
    (con : ∀ name, motive (.con name))
    (var : ∀ name, motive (.var name))
    (generic : ∀ name args, (∀ t ∈ args, motive t) → motive (.generic name args))
    (product : ∀ elements, (∀ t ∈ elements, motive t) → motive (.product elements))
    (sum : ∀ members, (∀ t ∈ members, motive t) → motive (.sum members))
    (tuple : ∀ elements, (∀ t ∈ elements, motive t) → motive (.tuple elements))
    (func : ∀ params result, (∀ t ∈ params, motive t) → motive result →
      motive (.func params result))
    (unary : ∀ c inner, motive inner → motive (.unary c inner))
    (binary : ∀ c first second, motive first → motive second → motive (.binary c first second)) :
    ∀ t, motive t :=
  @Ty.rec motive (fun ts => ∀ t ∈ ts, motive t) absent con var generic product sum tuple func unary
    binary (fun _ h => nomatch h) (fun _ _ hd tl t ht => by
      cases ht with
      | head => exact hd
      | tail _ h => exact tl t h)

mutual
def beq : Ty → Ty → Bool
  | .absent, .absent => true
  | .con m, .con n => m == n
  | .var m, .var n => m == n
  | .generic m as, .generic n bs => m == n && beqAll as bs
  | .product as, .product bs => beqAll as bs
  | .sum as, .sum bs => beqAll as bs
  | .tuple as, .tuple bs => beqAll as bs
  | .func as r, .func bs s => beqAll as bs && beq r s
  | .unary c a, .unary d b => decide (c = d) && beq a b
  | .binary c a a', .binary d b b' => decide (c = d) && beq a b && beq a' b'
  | _, _ => false
def beqAll : List Ty → List Ty → Bool
  | [], [] => true
  | a :: as, b :: bs => beq a b && beqAll as bs
  | _, _ => false
end

theorem beqAll_iff {as : List Ty} (ih : ∀ a ∈ as, ∀ b, beq a b = true ↔ a = b) :
    ∀ bs, beqAll as bs = true ↔ as = bs := by
  induction as with
  | nil => intro bs; cases bs <;> simp [beqAll]
  | cons a as iha =>
      intro bs
      cases bs with
      | nil => simp [beqAll]
      | cons b bs =>
          simp only [beqAll, Bool.and_eq_true, List.cons.injEq]
          rw [ih a (by simp) b, iha (fun x hx => ih x (by simp [hx])) bs]

theorem beq_iff (a : Ty) : ∀ b, beq a b = true ↔ a = b := by
  induction a with
  | absent => intro b; cases b <;> simp [beq]
  | con m => intro b; cases b <;> simp [beq]
  | var m => intro b; cases b <;> simp [beq]
  | generic m as ih => intro b; cases b <;> simp [beq, beqAll_iff ih]
  | product as ih => intro b; cases b <;> simp [beq, beqAll_iff ih]
  | sum as ih => intro b; cases b <;> simp [beq, beqAll_iff ih]
  | tuple as ih => intro b; cases b <;> simp [beq, beqAll_iff ih]
  | func as r ih ihr => intro b; cases b <;> simp [beq, beqAll_iff ih, ihr]
  | unary c a ih => intro b; cases b <;> simp [beq, ih]
  | binary c a a' ih ih' => intro b; cases b <;> simp [beq, ih, ih', and_assoc]

instance : DecidableEq Ty := fun a b => decidable_of_iff _ (beq_iff a b)

def int : Ty := .con "int"

def float : Ty := .con "float"

def bool : Ty := .con "bool"

def str : Ty := .con "str"

def any : Ty := .con "any"

def primitives : List String := ["int", "float", "bool", "str", "any"]

def tupleName : String := "tuple"

def selfName : String := "Self"

def children : Ty → List Ty
  | .absent | .con _ | .var _ => []
  | .generic _ ts | .product ts | .sum ts | .tuple ts => ts
  | .func ps r => ps ++ [r]
  | .unary _ t => [t]
  | .binary _ t u => [t, u]

end Ty

def Unary.name : Unary → String
  | .vec => "Vec"
  | .set => "Set"
  | .option => "Option"
  | .task => "Task"

def Unary.ofName? (s : String) : Option Unary :=
  [Unary.vec, .set, .option, .task].find? fun c => c.name = s

def Binary.name : Binary → String
  | .map => "Map"
  | .result => "Result"

def Binary.ofName? (s : String) : Option Binary :=
  [Binary.map, .result].find? fun c => c.name = s

end Toolchain
