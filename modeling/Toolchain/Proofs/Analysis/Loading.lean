import Toolchain.Proofs.Analysis.FullReport
import Toolchain.Proofs.Environment.Scoping
import Toolchain.Proofs.Ty.Rendering

namespace Toolchain

structure Variable where
  name : String
  type : Ty
  scope : Int

namespace Variable

variable {x : Variable} {xs : List Variable} {name : String} {t : Ty}

def bindIn (e : Environment) (x : Variable) : Environment :=
  (e.enterTo x.scope.toNat).bind x.name x.type

def held (x : Variable) : Nat × String × Ty := (x.scope.toNat, x.name, x.type)

def visible : List Variable → List Variable
  | [] => []
  | x :: xs => if ∀ y ∈ xs, x.scope ≤ y.scope then x :: visible xs else visible xs

theorem visible_subset (xs : List Variable) : visible xs ⊆ xs := by
  induction xs with
  | nil => exact fun _ h => h
  | cons x xs ih =>
      have hxs : visible xs ⊆ x :: xs := List.Subset.trans ih (List.subset_cons_self x xs)
      unfold visible
      split
      · exact List.cons_subset.mpr ⟨List.mem_cons_self, hxs⟩
      · exact hxs

theorem pairwise_visible (xs : List Variable) :
    (visible xs).Pairwise fun x y => x.scope ≤ y.scope := by
  induction xs with
  | nil => exact .nil
  | cons x xs ih =>
      unfold visible
      split
      next h => exact .cons (fun y hy => h y (visible_subset xs hy)) ih
      next => exact ih

theorem held_bindIn (e : Environment) (x : Variable) :
    (bindIn e x).held = e.held.filter (·.1 ≤ x.scope.toNat) ++ [x.held] := by
  rw [bindIn, Environment.held_bind, Environment.held_enterTo, Environment.depth_enterTo]
  rfl

theorem held_foldl_bindIn (e : Environment) (hscopes : ∀ x ∈ xs, 0 ≤ x.scope) :
    (xs.foldl bindIn e).held =
      e.held.filter (fun b => ∀ y ∈ xs, (b.1 : Int) ≤ y.scope) ++ (visible xs).map held := by
  induction xs generalizing e with
  | nil =>
      rw [visible, List.map_nil, List.append_nil]
      exact (List.filter_eq_self.mpr (by simp)).symm
  | cons x xs ih =>
      obtain ⟨hx, hxs⟩ := List.forall_mem_cons.mp hscopes
      have hcast : (x.scope.toNat : Int) = x.scope := Int.toNat_of_nonneg hx
      have hkept : e.held.filter (fun b => decide (∀ y ∈ xs, (b.1 : Int) ≤ y.scope) &&
          decide (b.1 ≤ x.scope.toNat)) =
          e.held.filter fun b => ∀ y ∈ x :: xs, (b.1 : Int) ≤ y.scope := by
        refine List.filter_congr fun b _ => ?_
        have hle : b.1 ≤ x.scope.toNat ↔ (b.1 : Int) ≤ x.scope := by omega
        rw [Bool.eq_iff_iff, Bool.and_eq_true, decide_eq_true_iff, decide_eq_true_iff,
          decide_eq_true_iff, List.forall_mem_cons, hle, and_comm]
      have hnew : [x.held].filter (fun b => ∀ y ∈ xs, (b.1 : Int) ≤ y.scope) =
          if ∀ y ∈ xs, x.scope ≤ y.scope then [x.held] else [] := by
        simp [List.filter_cons, held, hcast]
      rw [List.foldl_cons, ih _ hxs, held_bindIn, List.filter_append, List.filter_filter, hkept,
        hnew, visible]
      split
      · rw [List.append_assoc, List.map_cons, List.singleton_append]
      · rw [List.append_nil]

theorem depth_foldl_bindIn (e : Environment) :
    (xs.foldl bindIn e).depth = (xs.getLast?.map (·.scope.toNat)).getD e.depth := by
  induction xs generalizing e with
  | nil => rfl
  | cons x xs ih =>
      rw [List.foldl_cons, ih]
      cases xs with
      | nil => simp [bindIn]
      | cons y ys =>
          rw [List.getLast?_cons_cons, List.getLast?_eq_some_getLast (List.cons_ne_nil y ys)]
          rfl

def Foremost (xs : List Variable) (name : String) (x : Variable) : Prop :=
  ∃ before after, xs = before ++ x :: after ∧ x.name = name ∧
    (∀ y ∈ before, y.name = name → y.scope ≤ x.scope) ∧
    ∀ y ∈ after, y.name = name → y.scope < x.scope

theorem foremost_iff_last (hsorted : xs.Pairwise fun x y => x.scope ≤ y.scope) :
    Foremost xs name x ↔ ∃ before after, xs = before ++ x :: after ∧ x.name = name ∧
      ∀ y ∈ after, y.name ≠ name := by
  constructor
  · rintro ⟨before, after, rfl, hname, -, hafter⟩
    refine ⟨before, after, rfl, hname, fun y hy hyname => ?_⟩
    have hle := List.rel_of_pairwise_cons (List.pairwise_append.mp hsorted).2.1 hy
    exact absurd (hafter y hy hyname) (Int.not_lt.mpr hle)
  · rintro ⟨before, after, rfl, hname, hafter⟩
    refine ⟨before, after, rfl, hname, fun y hy _ => ?_, fun y hy hyname => ?_⟩
    · exact (List.pairwise_append.mp hsorted).2.2 y hy x List.mem_cons_self
    · exact absurd hyname (hafter y hy)

def binding (x : Variable) : String × Ty := (x.name, x.type)

theorem lookup_reverse_eq_some_iff (hsorted : xs.Pairwise fun x y => x.scope ≤ y.scope) :
    (xs.map binding).reverse.lookup name = some t ↔ ∃ x, Foremost xs name x ∧ x.type = t := by
  simp only [foremost_iff_last hsorted, List.lookup_eq_some_iff]
  constructor
  · rintro ⟨after, before, hxs, hafter⟩
    have hxs : xs.map binding = before.reverse ++ (name, t) :: after.reverse := by
      rw [← List.reverse_inj, hxs]
      simp
    obtain ⟨before', rest, rfl, -, hrest⟩ := List.map_eq_append_iff.mp hxs
    obtain ⟨x, after', rfl, hx, hafter'⟩ := List.map_eq_cons_iff.mp hrest
    obtain ⟨hname, htype⟩ := Prod.mk.inj hx
    refine ⟨x, ⟨before', after', rfl, hname, fun y hy hyname => ?_⟩, htype⟩
    have hmem : y.binding ∈ after := by
      rw [← List.mem_reverse, ← hafter']
      exact List.mem_map_of_mem hy
    exact ne_of_beq_false (Bool.not_eq_true' _ |>.mp (hafter y.binding hmem)) hyname.symm
  · rintro ⟨x, ⟨before, after, rfl, rfl, hafter⟩, rfl⟩
    refine ⟨(after.map binding).reverse, (before.map binding).reverse, by simp [binding], ?_⟩
    intro p hp
    obtain ⟨y, hy, rfl⟩ := List.mem_map.mp (List.mem_reverse.mp hp)
    simpa [binding] using (hafter y hy).symm

theorem lookup_reverse_eq_none_iff :
    (xs.map binding).reverse.lookup name = none ↔ ∀ x ∈ xs, x.name ≠ name := by
  simp only [List.lookup_eq_none_iff, List.mem_reverse, List.forall_mem_map, binding, bne_iff_ne,
    ne_comm]

end Variable

namespace Binding

def isTyped (b : Binding) : Bool := (Ty.parse b.type).isOk

def typed? (b : Binding) : Option Variable :=
  (Ty.parse b.type).toOption.map fun t => ⟨b.name, t, b.scope⟩

theorem scope_of_typed? {b : Binding} {x : Variable} (h : b.typed? = some x) :
    x.scope = b.scope := by
  obtain ⟨t, _, rfl⟩ := Option.map_eq_some_iff.mp h
  rfl

end Binding

namespace SourceUnit

def typedVars (u : SourceUnit) : List Variable := u.vars.filterMap Binding.typed?

def Scoped (u : SourceUnit) : Prop := ∀ b ∈ u.vars, b.isTyped = true → 0 ≤ b.scope

def readable (u : SourceUnit) : SourceUnit :=
  { u with
    vars := u.vars.filter Binding.isTyped
    functions := u.functions.filter Binding.isTyped
    declarations := u.declarations.filter Binding.isTyped }

theorem scope_nonneg {u : SourceUnit} (h : ∀ b ∈ u.vars, 0 ≤ b.scope) :
    ∀ x ∈ u.typedVars, 0 ≤ x.scope := by
  intro x hx
  obtain ⟨b, hb, hbx⟩ := List.mem_filterMap.mp hx
  rw [Binding.scope_of_typed? hbx]
  exact h b hb

end SourceUnit

abbrev Known := Environment × List Declaration

namespace Known

variable {act : Known → Binding → Ty → Known} {k : Known} {b : Binding}

def take (act : Known → Binding → Ty → Known) (k : Known) (b : Binding) : Known :=
  match Ty.parse b.type with
  | .ok t => act k b t
  | .error _ => k

def takeVariable (k : Known) (b : Binding) (t : Ty) : Known :=
  (Variable.bindIn k.1 ⟨b.name, t, b.scope⟩, k.2)

def takeDeclaration (u : SourceUnit) (k : Known) (b : Binding) (t : Ty) : Known :=
  (k.1, k.2 ++ [⟨b.name, t, u.span b.start b.stop⟩])

def takeFunction (u : SourceUnit) (k : Known) (b : Binding) (t : Ty) : Known :=
  takeDeclaration u (k.1.bindFunction b.name t, k.2) b t

def takeDemand (u : SourceUnit) (k : Known) (d : Demand) : Known :=
  (k.1.constrain ⟨d.type, d.iface, u.span d.start d.stop⟩, k.2)

theorem foldl_take_filter (bs : List Binding) (k : Known) :
    (bs.filter Binding.isTyped).foldl (take act) k = bs.foldl (take act) k := by
  induction bs generalizing k with
  | nil => rfl
  | cons b bs ih =>
      rw [List.filter_cons, List.foldl_cons]
      cases hp : Ty.parse b.type with
      | ok t =>
          rw [if_pos (by rw [Binding.isTyped, hp]; rfl), List.foldl_cons, ih]
      | error err =>
          rw [if_neg (by rw [Binding.isTyped, hp]; exact Bool.false_ne_true), ih, take, hp]

theorem foldl_takeVariable (bs : List Binding) (k : Known) :
    bs.foldl (take takeVariable) k =
      ((bs.filterMap Binding.typed?).foldl Variable.bindIn k.1, k.2) := by
  induction bs generalizing k with
  | nil => rfl
  | cons b bs ih =>
      rw [List.foldl_cons, ih]
      cases hp : Ty.parse b.type with
      | ok t => simp [take, takeVariable, Binding.typed?, hp, Except.toOption]
      | error err => simp [take, Binding.typed?, hp, Except.toOption]

theorem stack_foldl {α : Type} {f : Known → α → Known}
    (hf : ∀ k x, (f k x).1.stack = k.1.stack) (xs : List α) (k : Known) :
    (xs.foldl f k).1.stack = k.1.stack := by
  induction xs generalizing k with
  | nil => rfl
  | cons x xs ih => exact (ih (f k x)).trans (hf k x)

theorem stack_take (hact : ∀ k b t, (act k b t).1.stack = k.1.stack) (k : Known) (b : Binding) :
    (take act k b).1.stack = k.1.stack := by
  unfold take
  split
  · exact hact k b _
  · rfl

theorem stack_takeDeclaration (u : SourceUnit) (k : Known) (b : Binding) :
    (take (takeDeclaration u) k b).1.stack = k.1.stack := by
  refine stack_take ?_ k b
  exact fun _ _ _ => rfl

theorem stack_takeFunction (u : SourceUnit) (k : Known) (b : Binding) :
    (take (takeFunction u) k b).1.stack = k.1.stack := by
  refine stack_take ?_ k b
  exact fun _ _ _ => rfl

end Known

namespace Context

variable {c : Context} {u : SourceUnit}

def known (c : Context) : Known := (c.environment, c.declarations)

theorem known_add (c : Context) (d : Diagnostic) : (c.add d).known = c.known := by
  unfold add
  split <;> rfl

theorem known_readBinding {act : Known → Binding → Ty → Known} {kind : String} {b : Binding}
    {g : Ty → Context} (hg : ∀ t, (g t).known = act c.known b t) :
    (match c.readBinding u kind b with | .error c => c | .ok t => g t).known =
      Known.take act c.known b := by
  unfold readBinding Known.take
  cases Ty.parse b.type with
  | ok t => exact hg t
  | error err => exact known_add c _

theorem known_loadVariable (c : Context) (b : Binding) :
    (c.loadVariable u b).known = Known.take Known.takeVariable c.known b := by
  refine known_readBinding ?_
  exact fun _ => rfl

theorem known_loadFunction (c : Context) (b : Binding) :
    (c.loadFunction u b).known = Known.take (Known.takeFunction u) c.known b := by
  refine known_readBinding ?_
  exact fun _ => rfl

theorem known_loadDeclaration (c : Context) (b : Binding) :
    (c.loadDeclaration u b).known = Known.take (Known.takeDeclaration u) c.known b := by
  refine known_readBinding ?_
  exact fun _ => rfl

theorem known_foldl {α : Type} {f : Context → α → Context} {g : Known → α → Known}
    (h : ∀ c x, (f c x).known = g c.known x) (xs : List α) (c : Context) :
    (xs.foldl f c).known = xs.foldl g c.known :=
  (List.foldl_hom known fun c x => (h c x).symm).symm

end Context

namespace Stage

theorem known_load (u : SourceUnit) (c : Context) : (load u c).known =
    u.demands.foldl (Known.takeDemand u)
      (u.declarations.foldl (Known.take (Known.takeDeclaration u))
        (u.functions.foldl (Known.take (Known.takeFunction u))
          (u.vars.foldl (Known.take Known.takeVariable) c.known))) := by
  rw [load,
    Context.known_foldl (f := Context.loadDemand u) (g := Known.takeDemand u) fun _ _ => rfl,
    Context.known_foldl Context.known_loadDeclaration,
    Context.known_foldl Context.known_loadFunction, Context.known_foldl Context.known_loadVariable]

theorem stack_load (u : SourceUnit) (c : Context) :
    (load u c).environment.stack = (u.typedVars.foldl Variable.bindIn c.environment).stack := by
  have hknown := congrArg (·.1.stack) (known_load u c)
  rw [Known.stack_foldl (f := Known.takeDemand u) fun _ _ => rfl,
    Known.stack_foldl (Known.stack_takeDeclaration u),
    Known.stack_foldl (Known.stack_takeFunction u), Known.foldl_takeVariable] at hknown
  exact hknown

theorem known_load_readable (u : SourceUnit) (c : Context) :
    (load u.readable c).known = (load u c).known := by
  rw [known_load, known_load]
  simp only [SourceUnit.readable, Known.foldl_take_filter]
  rfl

end Stage

namespace Context

/-- Takes in variables one after another, with the loops that lead to the depth of each; nothing
comes of it if the loops of one do not end. -/
inductive TakesIn (u : SourceUnit) : List Binding → Context → Context → Prop
  | nil {c : Context} : TakesIn u [] c c
  | skip {c c₁ c' : Context} {b : Binding} {bs : List Binding}
      (h : c.readBinding u "variable" b = .error c₁) (rest : TakesIn u bs c₁ c') :
      TakesIn u (b :: bs) c c'
  | bind {c c' : Context} {b : Binding} {bs : List Binding} {t : Ty} {e : Environment}
      (h : c.readBinding u "variable" b = .ok t) (loops : c.environment.Settles b.scope e)
      (rest : TakesIn u bs { c with environment := e.bind b.name t } c') : TakesIn u (b :: bs) c c'

variable {u : SourceUnit} {c c' c₁ : Context} {b : Binding} {bs : List Binding} {t : Ty}

theorem loadVariable_of_error (h : c.readBinding u "variable" b = .error c₁) :
    c.loadVariable u b = c₁ := by
  rw [loadVariable, h]

theorem loadVariable_of_ok (h : c.readBinding u "variable" b = .ok t) : c.loadVariable u b =
    { c with environment := (c.environment.enterTo b.scope.toNat).bind b.name t } := by
  rw [loadVariable, h]

theorem isTyped_iff_readBinding {kind : String} :
    b.isTyped = true ↔ ∃ t, c.readBinding u kind b = .ok t := by
  unfold readBinding Binding.isTyped
  cases Ty.parse b.type with
  | ok t => exact ⟨fun _ => ⟨t, rfl⟩, fun _ => rfl⟩
  | error err => simp [Except.isOk, Except.toBool, Except.mapError]

theorem TakesIn.eq_foldl (h : TakesIn u bs c c') :
    (∀ b ∈ bs, b.isTyped = true → 0 ≤ b.scope) ∧ c' = bs.foldl (loadVariable u) c := by
  induction h with
  | nil => simp
  | skip h _ ih =>
      rw [List.foldl_cons, loadVariable_of_error h]
      refine ⟨List.forall_mem_cons.mpr ⟨fun htyped => ?_, ih.1⟩, ih.2⟩
      obtain ⟨t, ht⟩ := isTyped_iff_readBinding.mp htyped
      exact absurd (ht.symm.trans h) (by simp)
  | bind h loops _ ih =>
      obtain ⟨hscope, rfl⟩ := loops.eq_enterTo
      rw [List.foldl_cons, loadVariable_of_ok h]
      exact ⟨List.forall_mem_cons.mpr ⟨fun _ => hscope, ih.1⟩, ih.2⟩

theorem takesIn_foldl (u : SourceUnit) (c : Context)
    (hscopes : ∀ b ∈ bs, b.isTyped = true → 0 ≤ b.scope) :
    TakesIn u bs c (bs.foldl (loadVariable u) c) := by
  induction bs generalizing c with
  | nil => exact .nil
  | cons b bs ih =>
      obtain ⟨hb, hbs⟩ := List.forall_mem_cons.mp hscopes
      have hrest := ih (c.loadVariable u b) hbs
      cases hread : c.readBinding u "variable" b with
      | error c₁ =>
          rw [loadVariable_of_error hread] at hrest
          rw [List.foldl_cons, loadVariable_of_error hread]
          exact .skip hread hrest
      | ok t =>
          have hscope := hb (isTyped_iff_readBinding.mpr ⟨t, hread⟩)
          rw [loadVariable_of_ok hread] at hrest
          rw [List.foldl_cons, loadVariable_of_ok hread]
          exact .bind hread (Environment.settles_iff.mpr ⟨hscope, rfl⟩) hrest

def Loads (u : SourceUnit) (c c' : Context) : Prop :=
  ∃ c₁, TakesIn u u.vars c c₁ ∧ c' = Stage.load { u with vars := [] } c₁

theorem loads_iff : Loads u c c' ↔ u.Scoped ∧ c' = Stage.load u c := by
  constructor
  · rintro ⟨c₁, htakes, rfl⟩
    obtain ⟨hscopes, rfl⟩ := htakes.eq_foldl
    exact ⟨hscopes, rfl⟩
  · rintro ⟨hscopes, rfl⟩
    exact ⟨_, takesIn_foldl u c hscopes, rfl⟩

end Context

namespace SourceUnit

variable (u : SourceUnit) (label : String) (s : Settings) (archive : Option Archive)

def environment : Environment := (Stage.load u (.new label s archive)).environment

theorem stack_environment :
    (u.environment label s archive).stack = (u.typedVars.foldl Variable.bindIn .empty).stack :=
  Stage.stack_load u _

theorem depth_environment : (u.environment label s archive).depth =
    (u.typedVars.getLast?.map (·.scope.toNat)).getD 0 := by
  have hlength := congrArg List.length (u.stack_environment label s archive)
  rw [Environment.length_stack, Environment.length_stack, Variable.depth_foldl_bindIn] at hlength
  exact Nat.succ.inj hlength

variable {u}

theorem held_environment (hscopes : ∀ b ∈ u.vars, 0 ≤ b.scope) :
    (u.environment label s archive).held = (Variable.visible u.typedVars).map Variable.held := by
  rw [Environment.held, stack_environment, ← Environment.held,
    Variable.held_foldl_bindIn _ (scope_nonneg hscopes)]
  rfl

theorem lookup_environment (hscopes : ∀ b ∈ u.vars, 0 ≤ b.scope) (name : String) :
    (u.environment label s archive).lookup name =
      ((Variable.visible u.typedVars).map Variable.binding).reverse.lookup name := by
  rw [Environment.lookup_eq_lookup_held, held_environment label s archive hscopes, List.map_map]
  rfl

theorem load_follows_scopes (hscopes : ∀ b ∈ u.vars, 0 ≤ b.scope) (label : String) (s : Settings)
    (archive : Option Archive) :
    let c := Context.new label s archive
    let e := (Stage.load u c).environment
    let visible := Variable.visible u.typedVars
    (∀ c', Context.Loads u c c' ↔ c' = Stage.load u c) ∧
    (e.depth : Int) = (u.typedVars.getLast?.map (·.scope)).getD 0 ∧
    e.held = visible.map (fun x => (x.scope.toNat, x.name, x.type)) ∧
    (∀ name t, e.lookup name = some t ↔ ∃ x, Variable.Foremost visible name x ∧ x.type = t) ∧
    (∀ name, e.lookup name = none ↔ ∀ x ∈ visible, x.name ≠ name) ∧
    (Stage.load u.readable c).environment = e ∧
    (Stage.load u.readable c).declarations = (Stage.load u c).declarations := by
  intro c e visible
  have hlookup (name : String) := lookup_environment label s archive hscopes name
  have hreadable := Stage.known_load_readable u c
  refine ⟨fun c' => ?_, ?_, held_environment label s archive hscopes, fun name t => ?_,
    fun name => ?_, congrArg (·.1) hreadable, congrArg (·.2) hreadable⟩
  · exact Context.loads_iff.trans (and_iff_right fun b hb _ => hscopes b hb)
  · rw [show e.depth = _ from u.depth_environment label s archive]
    cases hlast : u.typedVars.getLast? with
    | none => rfl
    | some x =>
        exact Int.toNat_of_nonneg (scope_nonneg hscopes x (List.mem_of_getLast? hlast))
  · rw [show e.lookup name = _ from hlookup name]
    exact Variable.lookup_reverse_eq_some_iff (Variable.pairwise_visible _)
  · rw [show e.lookup name = _ from hlookup name]
    exact Variable.lookup_reverse_eq_none_iff

theorem parse_primitive {n : String} (h : n ∈ Ty.primitives) : Ty.parse n = .ok (.con n) :=
  Ty.Expressible.parse_render (.con h) rfl

-- The scope of `y` is closed again, the outer `x` is shadowed, and `z` opens no scope.
theorem load_follows_scopes_nested :
    let u : SourceUnit := ⟨"u", 0, [⟨"x", "int", 0, 0, 0⟩, ⟨"y", "bool", 2, 0, 0⟩,
      ⟨"x", "str", 1, 0, 0⟩, ⟨"z", "<", 5, 0, 0⟩], [], [], []⟩
    let e := (Stage.load u (.new "u" .default none)).environment
    e.depth = 1 ∧ e.lookup "x" = some .str ∧ e.lookup "y" = none := by
  intro u e
  obtain ⟨err, herr⟩ := exists_error_parse_angle
  have htyped : u.typedVars = [⟨"x", .int, 0⟩, ⟨"y", .bool, 2⟩, ⟨"x", .str, 1⟩] := by
    have hint : Ty.parse "int" = .ok .int := parse_primitive (by decide)
    have hbool : Ty.parse "bool" = .ok .bool := parse_primitive (by decide)
    have hstr : Ty.parse "str" = .ok .str := parse_primitive (by decide)
    simp [u, typedVars, Binding.typed?, Except.toOption, herr, hint, hbool, hstr]
  have hvisible : Variable.visible u.typedVars = [⟨"x", .int, 0⟩, ⟨"x", .str, 1⟩] := by
    simp [htyped, Variable.visible]
  obtain ⟨-, hdepth, -, hsome, hnone, -⟩ :=
    load_follows_scopes (u := u) (by simp [u]) "u" .default none
  rw [hvisible] at hsome hnone
  refine ⟨?_, (hsome "x" .str).mpr ⟨⟨"x", .str, 1⟩, ⟨[⟨"x", .int, 0⟩], [], rfl, rfl, ?_, ?_⟩, rfl⟩,
    (hnone "y").mpr (by simp)⟩
  · rw [htyped] at hdepth
    exact Int.ofNat.inj hdepth
  · simp
  · simp

end SourceUnit

end Toolchain
