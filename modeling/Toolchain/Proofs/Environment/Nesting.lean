import Mathlib.Data.List.Induction
import Mathlib.Data.List.Infix
import Toolchain.Environment

namespace Toolchain.Environment

inductive Op where
  | enter
  | exit
  | bind (name : String) (t : Ty)
  | bindFunction (name : String) (t : Ty)
  | constrain (c : Constraint)
  | clearConstraints
  deriving DecidableEq

def Op.apply (e : Environment) : Op → Environment
  | .enter => e.enter
  | .exit => e.exit
  | .bind name t => e.bind name t
  | .bindFunction name t => e.bindFunction name t
  | .constrain c => e.constrain c
  | .clearConstraints => e.clearConstraints

def perform (e : Environment) (w : List Op) : Environment := w.foldl Op.apply e

structure Nested (w : List Op) : Prop where
  opened : ∀ u, u <+: w → u.count .exit ≤ u.count .enter
  closed : w.count .exit = w.count .enter

variable {base e : Environment} {w u v : List Op} {op : Op} {n : Nat} {name : String} {t : Ty}

theorem perform_concat (e : Environment) (w : List Op) (op : Op) :
    e.perform (w ++ [op]) = op.apply (e.perform w) := by
  simp [perform]

theorem perform_append_cons (e : Environment) (u v : List Op) (op : Op) :
    e.perform (u ++ op :: v) = (op.apply (e.perform u)).perform v := by
  simp [perform]

section scopes

/-- `n` scopes are open inside those of `base`, and of `base` nothing has changed. -/
structure Above (base : Environment) (n : Nat) (e : Environment) : Prop where
  globals : e.globals = base.globals
  scopes : ∃ inner, inner.length = n ∧ e.scopes = inner ++ base.scopes

theorem above_self (e : Environment) : Above e 0 e := ⟨rfl, [], rfl, rfl⟩

theorem Above.congr {e' : Environment} (h : Above base n e) (hg : e'.globals = e.globals)
    (hs : e'.scopes = e.scopes) : Above base n e' := by
  obtain ⟨inner, hlen, hscopes⟩ := h.scopes
  exact ⟨hg.trans h.globals, inner, hlen, hs.trans hscopes⟩

theorem Above.enter (h : Above base n e) : Above base (n + 1) e.enter := by
  obtain ⟨inner, hlen, hscopes⟩ := h.scopes
  exact ⟨h.globals, [] :: inner, by simp [hlen], by simp [Environment.enter, hscopes]⟩

theorem Above.exit (h : Above base (n + 1) e) : Above base n e.exit := by
  obtain ⟨inner, hlen, hscopes⟩ := h.scopes
  cases inner with
  | nil => exact absurd hlen (by simp)
  | cons s inner =>
      exact ⟨h.globals, inner, by simpa using hlen, by simp [Environment.exit, hscopes]⟩

theorem Above.bind (h : Above base (n + 1) e) (name : String) (t : Ty) :
    Above base (n + 1) (e.bind name t) := by
  obtain ⟨inner, hlen, hscopes⟩ := h.scopes
  cases inner with
  | nil => exact absurd hlen (by simp)
  | cons s inner =>
      have hbind :
          e.bind name t = { e with scopes := ((name, t) :: s) :: (inner ++ base.scopes) } := by
        simp [Environment.bind, hscopes]
      rw [hbind]
      exact ⟨h.globals, ((name, t) :: s) :: inner, by simpa using hlen, rfl⟩

def Op.level (n : Nat) : Op → Nat
  | .enter => n + 1
  | .exit => n - 1
  | _ => n

theorem Above.apply (h : Above base (n + 1) e) (op : Op) :
    Above base (op.level (n + 1)) (op.apply e) := by
  cases op with
  | enter => exact h.enter
  | exit => exact h.exit
  | bind name t => exact h.bind name t
  | bindFunction name t => exact h.congr rfl rfl
  | constrain c => exact h.congr rfl rfl
  | clearConstraints => exact h.congr rfl rfl

theorem Op.level_count (hbefore : w.count .exit ≤ w.count .enter)
    (hafter : (w ++ [op]).count .exit ≤ (w ++ [op]).count .enter) :
    op.level (w.count .enter - w.count .exit + 1) =
      (w ++ [op]).count .enter - (w ++ [op]).count .exit + 1 := by
  rw [List.count_append, List.count_append] at hafter ⊢
  cases op with
  | enter =>
      simp only [level, List.count_singleton_self, List.count_singleton, reduceCtorEq, beq_iff_eq,
        if_false]
      omega
  | exit =>
      simp only [level, List.count_singleton_self, List.count_singleton, reduceCtorEq, beq_iff_eq,
        if_false] at hafter ⊢
      omega
  | _ => simp [level]

theorem above_perform (e : Environment) (hw : ∀ u, u <+: w → u.count .exit ≤ u.count .enter) :
    Above e (w.count .enter - w.count .exit + 1) (e.enter.perform w) := by
  -- A prefix never closes the scope around it, so there is one more open than it counts.
  induction w using List.reverseRecOn with
  | nil => exact (above_self e).enter
  | append_singleton w op ih =>
      have hprefix := List.prefix_append w [op]
      have hstep := (ih fun u hu => hw u (hu.trans hprefix)).apply op
      rw [Op.level_count (hw w hprefix) (hw _ (List.prefix_refl _))] at hstep
      rw [perform_concat]
      exact hstep

theorem Above.lookup (h : Above base 0 e) (name : String) : e.lookup name = base.lookup name := by
  obtain ⟨inner, hlen, hscopes⟩ := h.scopes
  rw [List.eq_nil_of_length_eq_zero hlen] at hscopes
  rw [Environment.lookup, Environment.lookup, hscopes, h.globals]
  rfl

theorem Above.depth (h : Above base n e) : e.depth = n + base.depth := by
  obtain ⟨inner, hlen, hscopes⟩ := h.scopes
  rw [Environment.depth, hscopes, List.length_append, hlen, Environment.depth]

theorem Nested.above (hw : Nested w) (e : Environment) : Above e 0 (e.enter.perform w).exit := by
  have habove := above_perform e hw.opened
  rw [hw.closed, Nat.sub_self] at habove
  exact habove.exit

end scopes

section functions

def BindsFunction (name : String) (op : Op) : Prop := ∃ t, op = .bindFunction name t

theorem lookupFunction_apply (h : ¬ BindsFunction name op) :
    (op.apply e).lookupFunction name = e.lookupFunction name := by
  cases op with
  | enter | exit | constrain c | clearConstraints => rfl
  | bind m t => rw [Op.apply, lookupFunction, lookupFunction, functions_bind]
  | bindFunction m t =>
      have hne : name ≠ m := by
        rintro rfl
        exact h ⟨t, rfl⟩
      have hbeq : (name == m) = false := beq_eq_false_iff_ne.mpr hne
      simp [Op.apply, lookupFunction, Environment.bindFunction, List.lookup_cons, hbeq]

theorem lookupFunction_perform (h : ∀ op ∈ w, ¬ BindsFunction name op) :
    (e.perform w).lookupFunction name = e.lookupFunction name := by
  induction w generalizing e with
  | nil => rfl
  | cons op w ih =>
      obtain ⟨hop, hw⟩ := List.forall_mem_cons.mp h
      exact (ih hw).trans (lookupFunction_apply hop)

theorem lookupFunction_perform_last (h : ∀ op ∈ v, ¬ BindsFunction name op) :
    (e.perform (u ++ .bindFunction name t :: v)).lookupFunction name = some t := by
  rw [perform_append_cons, lookupFunction_perform h]
  simp [Op.apply, lookupFunction, Environment.bindFunction]

end functions

section constraints

def Op.added : Op → Option Constraint
  | .constrain c => some c
  | _ => none

theorem constraints_apply (h : op ≠ .clearConstraints) :
    (op.apply e).constraints = e.constraints ++ op.added.toList := by
  cases op with
  | enter | exit | bindFunction m t => exact (List.append_nil _).symm
  | bind m t => exact (constraints_bind e m t).trans (List.append_nil _).symm
  | constrain c => rfl
  | clearConstraints => exact absurd rfl h

theorem constraints_perform (h : .clearConstraints ∉ w) :
    (e.perform w).constraints = e.constraints ++ w.filterMap Op.added := by
  induction w generalizing e with
  | nil => simp [perform]
  | cons op w ih =>
      rw [List.mem_cons, not_or] at h
      have hstep := ih (e := op.apply e) h.2
      rw [constraints_apply (Ne.symm h.1)] at hstep
      refine hstep.trans ?_
      cases hop : op.added <;> simp [hop]

theorem constraints_perform_last (h : .clearConstraints ∉ v) :
    (e.perform (u ++ .clearConstraints :: v)).constraints = v.filterMap Op.added := by
  rw [perform_append_cons, constraints_perform h]
  rfl

end constraints

theorem scopes_leave_no_trace (e : Environment) (w : List Op) (hw : Nested w) :
    let after := (e.enter.perform w).exit
    after.depth = e.depth ∧ (∀ name, after.lookup name = e.lookup name) ∧
    (∀ name, (∀ op ∈ w, ¬ BindsFunction name op) →
      after.lookupFunction name = e.lookupFunction name) ∧
    (∀ name t u v, w = u ++ .bindFunction name t :: v → (∀ op ∈ v, ¬ BindsFunction name op) →
      after.lookupFunction name = some t) ∧
    (.clearConstraints ∉ w → after.constraints = e.constraints ++ w.filterMap Op.added) ∧
    (∀ u v, w = u ++ .clearConstraints :: v → .clearConstraints ∉ v →
      after.constraints = v.filterMap Op.added) := by
  intro after
  have habove : Above e 0 after := hw.above e
  refine ⟨by simpa using habove.depth, habove.lookup, ?_, ?_, ?_, ?_⟩
  · intro name hnone
    exact lookupFunction_perform (e := e.enter) hnone
  · rintro name t u v rfl hlast
    exact lookupFunction_perform_last hlast
  · intro hnone
    exact constraints_perform (e := e.enter) hnone
  · rintro u v rfl hlast
    exact constraints_perform_last hlast

-- Shadowing at two depths, a function bound twice, and a clear between two constraints.
theorem scopes_leave_no_trace_shadowed :
    let e := ((empty.bind "x" .int).enter.bind "y" .int).constrain ⟨"A", "Eq", .none⟩
    let w : List Op := [.bind "x" .str, .bindFunction "f" .int, .enter, .bind "y" .bool,
      .bindFunction "f" .str, .constrain ⟨"B", "Eq", .none⟩, .clearConstraints, .exit,
      .constrain ⟨"C", "Eq", .none⟩, .bind "x" .float]
    let inside := e.enter.perform w
    Nested w ∧ (inside.depth = 2 ∧ inside.lookup "x" = some .float) ∧ inside.exit.depth = 1 ∧
      inside.exit.lookup "x" = some .int ∧ inside.exit.lookupFunction "f" = some .str ∧
      inside.exit.constraints = [⟨"C", "Eq", .none⟩] := by
  intro e w inside
  have hprefixes : ∀ u ∈ w.inits, u.count .exit ≤ u.count .enter := by decide
  have hw : Nested w := ⟨fun u hu => hprefixes u ((List.mem_inits u w).mpr hu), by decide⟩
  obtain ⟨hdepth, hlookup, -, hfunction, -, hconstraints⟩ := scopes_leave_no_trace e w hw
  refine ⟨hw, ⟨by decide, by decide⟩, hdepth.trans (by decide), (hlookup "x").trans (by decide),
    ?_, ?_⟩
  · refine hfunction "f" .str (w.take 4) (w.drop 5) rfl ?_
    simp [w, BindsFunction]
  · exact (hconstraints (w.take 6) (w.drop 7) rfl (by decide)).trans (by decide)

end Toolchain.Environment
