import Toolchain.Environment

namespace Toolchain.Environment

variable {e e' : Environment} {n : Nat} {name : String} {t : Ty}

section loops

inductive Settles (n : Int) : Environment → Environment → Prop
  | done {e : Environment} (h : e.depth = n) : Settles n e e
  | enter {e e' : Environment} (h : e.depth < n) (rest : Settles n e.enter e') : Settles n e e'
  | exit {e e' : Environment} (h : n < e.depth) (rest : Settles n e.exit e') : Settles n e e'

theorem enterTo_depth (e : Environment) : e.enterTo e.depth = e := by simp [enterTo]

theorem enterTo_enter (h : e.depth < n) : e.enter.enterTo n = e.enterTo n := by
  have hopen : n - e.depth = n - (e.depth + 1) + 1 := by omega
  have hclose : e.depth - n = 0 ∧ e.depth + 1 - n = 0 := by omega
  simp only [enterTo, depth_enter, hopen, hclose, List.replicate_succ', List.drop_zero,
    List.append_assoc, List.singleton_append]
  rfl

theorem enterTo_exit (h : n < e.depth) : e.exit.enterTo n = e.enterTo n := by
  have hopen : n - e.depth = 0 ∧ n - (e.depth - 1) = 0 := by omega
  have hclose : e.depth - n = e.depth - 1 - n + 1 := by omega
  have hscopes : e.exit.scopes = e.scopes.tail := rfl
  simp only [enterTo, depth_exit, hopen, hclose, hscopes, List.replicate_zero, List.nil_append,
    List.drop_tail]
  rfl

theorem Settles.eq_enterTo {n : Int} (h : Settles n e e') : 0 ≤ n ∧ e' = e.enterTo n.toNat := by
  induction h with
  | @done e h =>
      subst h
      exact ⟨by omega, (enterTo_depth e).symm⟩
  | enter h _ ih => exact ⟨ih.1, ih.2.trans (enterTo_enter (by omega))⟩
  | exit h _ ih =>
      have hn := ih.1
      exact ⟨hn, ih.2.trans (enterTo_exit (by omega))⟩

theorem settles_enterTo (e : Environment) (n : Nat) : Settles n e (e.enterTo n) := by
  -- each turn of the loops brings the depth nearer to `n`
  induction hk : (n - e.depth) + (e.depth - n) generalizing e with
  | zero =>
      have hdepth : e.depth = n := by omega
      subst hdepth
      rw [enterTo_depth]
      exact .done rfl
  | succ k ih =>
      rcases Nat.lt_or_ge e.depth n with hlt | hge
      · rw [← enterTo_enter hlt]
        exact .enter (by omega) (ih e.enter (by rw [depth_enter]; omega))
      · have hgt : n < e.depth := by omega
        rw [← enterTo_exit hgt]
        exact .exit (by omega) (ih e.exit (by rw [depth_exit]; omega))

theorem settles_iff {n : Int} : Settles n e e' ↔ 0 ≤ n ∧ e' = e.enterTo n.toNat := by
  constructor
  · exact Settles.eq_enterTo
  · rintro ⟨hn, rfl⟩
    simpa [Int.toNat_of_nonneg hn] using settles_enterTo e n.toNat

end loops

section held

def layers : List Scope → List (Nat × String × Ty)
  | [] => []
  | s :: ss => layers ss ++ s.reverse.map fun b => (ss.length, b)

def stack (e : Environment) : List Scope := e.scopes ++ [e.globals]

def held (e : Environment) : List (Nat × String × Ty) := layers e.stack

theorem length_stack (e : Environment) : e.stack.length = e.depth + 1 := by simp [stack, depth]

theorem layers_replicate (k : Nat) (ss : List Scope) :
    layers (List.replicate k [] ++ ss) = layers ss := by
  induction k with
  | zero => rfl
  | succ k ih => simp [List.replicate_succ, layers, ih]

theorem lt_of_mem_layers {ss : List Scope} : ∀ x ∈ layers ss, x.1 < ss.length := by
  induction ss with
  | nil => simp [layers]
  | cons s ss ih =>
      intro x hx
      rcases List.mem_append.mp hx with hx | hx
      · exact Nat.lt_succ_of_lt (ih x hx)
      · obtain ⟨b, _, rfl⟩ := List.mem_map.mp hx
        exact Nat.lt_succ_self _

theorem layers_drop (ss : List Scope) (k : Nat) :
    layers (ss.drop k) = (layers ss).filter (·.1 < ss.length - k) := by
  induction ss generalizing k with
  | nil => simp [layers]
  | cons s ss ih =>
      cases k with
      | zero =>
          refine (List.filter_eq_self.mpr fun x hx => ?_).symm
          exact decide_eq_true (lt_of_mem_layers x hx)
      | succ k =>
          have hlast :
              (s.reverse.map fun b => (ss.length, b)).filter (·.1 < ss.length - k) = [] := by
            rw [List.filter_eq_nil_iff]
            intro x hx
            obtain ⟨b, _, rfl⟩ := List.mem_map.mp hx
            simp
          rw [List.drop_succ_cons, ih, layers, List.length_cons, Nat.add_sub_add_right,
            List.filter_append, hlast, List.append_nil]

theorem stack_enterTo (e : Environment) (n : Nat) :
    (e.enterTo n).stack = List.replicate (n - e.depth) [] ++ e.stack.drop (e.depth - n) := by
  have hle : e.depth - n ≤ e.scopes.length := Nat.sub_le _ _
  simp [stack, enterTo, List.drop_append_of_le_length hle]

theorem held_enterTo (e : Environment) (n : Nat) :
    (e.enterTo n).held = e.held.filter (·.1 ≤ n) := by
  rw [held, stack_enterTo, layers_replicate, layers_drop, length_stack, held]
  refine List.filter_congr fun x hx => ?_
  have hlt : x.1 < e.depth + 1 := e.length_stack ▸ lt_of_mem_layers x hx
  exact decide_eq_decide.mpr (by omega)

theorem held_bind (e : Environment) (name : String) (t : Ty) :
    (e.bind name t).held = e.held ++ [(e.depth, name, t)] := by
  unfold bind
  split
  next hs => simp [held, stack, layers, hs, depth]
  next s ss hs => simp [held, stack, layers, hs, depth]

theorem flatten_stack (ss : List Scope) : ((layers ss).map (·.2)).reverse = ss.flatten := by
  induction ss with
  | nil => rfl
  | cons s ss ih => simp [layers, ← ih, Function.comp_def]

theorem findSome?_lookup (ss : List Scope) (name : String) :
    ss.findSome? (·.lookup name) = ss.flatten.lookup name := by
  induction ss with
  | nil => rfl
  | cons s ss ih =>
      rw [List.findSome?_cons, List.flatten_cons, List.lookup_append, ih]
      cases s.lookup name <;> rfl

theorem lookup_eq_lookup_held (e : Environment) (name : String) :
    e.lookup name = (e.held.map (·.2)).reverse.lookup name := by
  rw [held, flatten_stack, stack, List.flatten_append, List.lookup_append, ← findSome?_lookup,
    List.flatten_singleton, lookup]

end held

end Toolchain.Environment
