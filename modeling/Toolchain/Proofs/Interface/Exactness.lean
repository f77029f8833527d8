import Mathlib.Data.List.Forall2
import Toolchain.Proofs.Interface.Broken
import Toolchain.Proofs.Text.ByteOrder
import Toolchain.Proofs.Ty.Instances
import Toolchain.Proofs.Ty.Rendering

namespace Toolchain

theorem Subst.exists_image_eq (θ : String → Ty) (names : List String) :
    ∃ s : Subst, ∀ n ∈ names, s.image n = θ n := by
  refine ⟨names.map fun n => (n, θ n), fun n hn => ?_⟩
  rw [image, get?, List.lookup_graph θ hn, Option.getD_some]

theorem forall₂_iff_eq_map {α β : Type} {R : α → β → Prop} {f : α → β} {xs : List α}
    {ys : List β} (h : ∀ x ∈ xs, ∀ y, R x y ↔ y = f x) :
    List.Forall₂ R xs ys ↔ ys = xs.map f := by
  induction xs generalizing ys with
  | nil => simp
  | cons x xs ih =>
      obtain ⟨hx, hxs⟩ := List.forall_mem_cons.mp h
      cases ys with
      | nil => simp
      | cons y ys => rw [List.forall₂_cons, hx, ih hxs, List.map_cons, List.cons.injEq]

namespace Registry

variable {r : Registry} {self : Ty} {want got : Method} {methods : List Method}
  {name typeName : String} {i : Interface} {p : String × String}

section signature

def withSelf (self : Ty) (θ : String → Ty) (n : String) : Ty :=
  if n = Ty.selfName then self else θ n

theorem image_cons_self (self : Ty) (s : Subst) :
    Subst.image ((Ty.selfName, self) :: s) = withSelf self s.image := by
  funext n
  rw [Subst.image, Subst.get?, List.lookup_cons, withSelf]
  by_cases hn : n = Ty.selfName
  · simp [hn]
  · simp [hn, beq_eq_false_iff_ne.mpr hn, Subst.image, Subst.get?]

theorem under_expected (self : Ty) (want : Method) (θ : String → Ty) :
    (expected self want).under θ = want.type.under (withSelf (self.under θ) θ) := by
  rw [expected, Ty.apply_eq_under, image_cons_self, Ty.under_under]
  congr 1
  funext n
  unfold withSelf
  split
  · rfl
  · rfl

theorem conforms_iff : conforms self want got = true ↔
    ∃ θ, want.type.under (withSelf (self.under θ) θ) = got.type := by
  rw [conforms, Ty.instantiate_nil_iff]
  simp only [under_expected]

def Realizes (self : Ty) (want got : Method) : Prop :=
  ∃ s : Subst, want.type.apply ((Ty.selfName, self) :: s) = got.type

theorem realizes_iff : Realizes self want got ↔
    ∃ θ, want.type.under (withSelf self θ) = got.type := by
  simp only [Realizes, Ty.apply_eq_under, image_cons_self]
  constructor
  · rintro ⟨s, hs⟩
    exact ⟨s.image, hs⟩
  · rintro ⟨θ, hθ⟩
    obtain ⟨s, hs⟩ := Subst.exists_image_eq θ want.type.vars
    refine ⟨s, Eq.trans (Ty.under_congr_iff.mpr fun n hn => ?_) hθ⟩
    rw [withSelf, withSelf, hs n hn]

theorem conforms_iff_realizes (hself : self.vars = []) :
    conforms self want got = true ↔ Realizes self want got := by
  rw [conforms_iff, realizes_iff]
  simp only [Ty.under_of_vars_eq_nil hself]

end signature

section order

def ByteBefore (p q : String × String) : Prop :=
  Encoding.text p.1 < Encoding.text q.1 ∨
    p.1 = q.1 ∧ Encoding.text p.2 < Encoding.text q.2

theorem pairwise_text_keys {β : Type} (m : Std.TreeMap String β) :
    m.keys.Pairwise fun a b => Encoding.text a < Encoding.text b := by
  refine Std.TreeMap.ordered_keys.imp fun {a b} h => ?_
  have hlt : a < b := compareOfLessAndEq_eq_lt.mp h
  exact Encoding.text_lt_text hlt

theorem pairwise_text_interfacesOf (r : Registry) (t : String) :
    (r.interfacesOf t).Pairwise fun a b => Encoding.text a < Encoding.text b := by
  unfold interfacesOf
  cases r.implementations[t]? with
  | none => exact .nil
  | some m => exact pairwise_text_keys m

theorem pairwise_pairs (r : Registry) : r.pairs.Pairwise ByteBefore := by
  refine List.pairwise_flatMap.mpr ⟨fun t _ => ?_, ?_⟩
  · refine List.pairwise_map.mpr ((r.pairwise_text_interfacesOf t).imp fun h => ?_)
    exact .inr ⟨rfl, h⟩
  · refine (pairwise_text_keys r.implementations).imp fun h p hp q hq => ?_
    obtain ⟨_, _, rfl⟩ := List.mem_map.mp hp
    obtain ⟨_, _, rfl⟩ := List.mem_map.mp hq
    exact .inl h

theorem mem_interfacesOf {t iface : String} :
    iface ∈ r.interfacesOf t ↔ r.implements t iface = true := by
  unfold interfacesOf implements methods?
  cases r.implementations[t]? with
  | none => simp
  | some m => simp

theorem mem_pairs {t iface : String} :
    (t, iface) ∈ r.pairs ↔ r.implements t iface = true := by
  have htype (h : r.implements t iface = true) : t ∈ r.types := by
    rw [types, Std.TreeMap.mem_keys, Std.TreeMap.mem_iff_isSome_getElem?]
    rw [implements, methods?] at h
    exact Option.isSome_of_isSome_bind h
  constructor
  · intro h
    obtain ⟨t', _, hmem⟩ := List.mem_flatMap.mp h
    obtain ⟨iface', hiface, heq⟩ := List.mem_map.mp hmem
    obtain ⟨rfl, rfl⟩ := Prod.mk.inj heq
    exact mem_interfacesOf.mp hiface
  · intro h
    refine List.mem_flatMap.mpr ⟨t, htype h, List.mem_map.mpr ⟨iface, ?_, rfl⟩⟩
    exact mem_interfacesOf.mpr h

end order

section reports

def LastNamed (methods : List Method) (name : String) (got : Method) : Prop :=
  ∃ before after, methods = before ++ got :: after ∧ got.name = name ∧ ∀ m ∈ after, m.name ≠ name

theorem provided?_eq_none_iff :
    provided? methods name = none ↔ ∀ m ∈ methods, m.name ≠ name := by
  simp [provided?]

theorem provided?_eq_some_iff : provided? methods name = some got ↔ LastNamed methods name got := by
  rw [provided?, List.find?_eq_some_iff_append, LastNamed]
  constructor
  · rintro ⟨hname, after, before, heq, hafter⟩
    refine ⟨before.reverse, after.reverse, ?_, by simpa using hname, ?_⟩
    · rw [← List.reverse_reverse methods, heq]
      simp
    · simpa using hafter
  · rintro ⟨before, after, rfl, hname, hafter⟩
    refine ⟨by simpa using hname, after.reverse, before.reverse, by simp, ?_⟩
    simpa using hafter

inductive MethodReport (typeName : String) (i : Interface) (methods : List Method)
    (want : Method) : Diagnostics → Prop
  | missing : (∀ m ∈ methods, m.name ≠ want.name) →
      MethodReport typeName i methods want
        [.error .invalidImplementation i.span
          ("type " ++ typeName ++ " does not provide method " ++ want.name ++
            " required by interface " ++ i.name)]
  | arity {got : Method} : LastNamed methods want.name got →
      got.params.length ≠ want.params.length →
      MethodReport typeName i methods want
        [.error .invalidImplementation got.span
          ("method " ++ want.name ++ " of " ++ i.name ++ " for " ++ typeName ++ " takes " ++
            Nat.repr got.params.length ++ " parameter(s), interface declares " ++
            Nat.repr want.params.length)]
  | signature {got : Method} : LastNamed methods want.name got →
      got.params.length = want.params.length →
      ¬ Realizes (implementingType typeName) want got →
      MethodReport typeName i methods want
        [.error .invalidImplementation got.span
          ("method " ++ want.name ++ " of " ++ i.name ++ " for " ++ typeName ++
            " has signature `" ++ got.type.render ++ "`, expected `" ++
            (expected (implementingType typeName) want).render ++ "`")]
  | provided {got : Method} : LastNamed methods want.name got →
      got.params.length = want.params.length →
      Realizes (implementingType typeName) want got →
      MethodReport typeName i methods want []

theorem methodReport_iff (hself : (implementingType typeName).vars = []) (ds : Diagnostics) :
    MethodReport typeName i methods want ds ↔ ds = checkMethod typeName i methods want := by
  constructor
  · intro h
    cases h with
    | missing hnone => simp [checkMethod, provided?_eq_none_iff.mpr hnone]
    | arity hgot hlen => simp [checkMethod, provided?_eq_some_iff.mpr hgot, hlen]
    | signature hgot hlen hsig =>
        have hconf := mt (conforms_iff_realizes hself).mp hsig
        simp [checkMethod, provided?_eq_some_iff.mpr hgot, hlen, hconf]
    | provided hgot hlen hsig =>
        have hconf := (conforms_iff_realizes hself).mpr hsig
        simp [checkMethod, provided?_eq_some_iff.mpr hgot, hlen, hconf]
  · rintro rfl
    unfold checkMethod
    cases hp : provided? methods want.name with
    | none => exact .missing (provided?_eq_none_iff.mp hp)
    | some got =>
        have hgot := provided?_eq_some_iff.mp hp
        dsimp only
        split
        next hlen => exact .arity hgot hlen
        next hlen =>
          split
          next hconf =>
            exact .provided hgot (not_not.mp hlen) ((conforms_iff_realizes hself).mp hconf)
          next hconf =>
            exact .signature hgot (not_not.mp hlen) (mt (conforms_iff_realizes hself).mpr hconf)

inductive Report (r : Registry) : String × String → Diagnostics → Prop
  | unknown {typeName iface : String} : r.interface? iface = none →
      Report r (typeName, iface)
        [.warning .invalidImplementation .none
          ("implementation of unknown interface " ++ iface ++ " for type " ++ typeName)]
  | known {typeName iface : String} {i : Interface} {methods : List Method}
      {reports : List Diagnostics} : r.interface? iface = some i →
      r.methods? typeName iface = some methods →
      List.Forall₂ (MethodReport typeName i methods) i.methods reports →
      Report r (typeName, iface) reports.flatten

theorem report_iff (hself : (implementingType p.1).vars = [])
    (hp : r.implements p.1 p.2 = true) (ds : Diagnostics) : r.Report p ds ↔ ds = r.check p := by
  obtain ⟨typeName, iface⟩ := p
  obtain ⟨methods, hm⟩ := Option.isSome_iff_exists.mp hp
  dsimp only at hself hm
  cases hi : r.interface? iface with
  | none =>
      simp only [check, checkImplementation, hi]
      constructor
      · intro h
        cases h with
        | unknown _ => rfl
        | known hi' _ _ => exact absurd (hi.symm.trans hi') (by simp)
      · rintro rfl
        exact .unknown hi
  | some i =>
      have hall {reports : List Diagnostics} :
          List.Forall₂ (MethodReport typeName i methods) i.methods reports ↔
            reports = i.methods.map (checkMethod typeName i methods) :=
        forall₂_iff_eq_map fun want _ ds => methodReport_iff hself ds
      have hcheck : r.check (typeName, iface) =
          (i.methods.map (checkMethod typeName i methods)).flatten := by
        simp [check, checkImplementation, hi, hm, List.flatMap_def]
      rw [hcheck]
      constructor
      · intro h
        cases h with
        | unknown hi' => exact absurd (hi.symm.trans hi') (by simp)
        | known hi' hm' hreports =>
            obtain rfl := Option.some.inj (hi.symm.trans hi')
            obtain rfl := Option.some.inj (hm.symm.trans hm')
            rw [hall.mp hreports]
      · rintro rfl
        exact .known hi hm (hall.mpr rfl)

def Fulfilled (r : Registry) (p : String × String) : Prop :=
  ∃ i methods, r.interface? p.2 = some i ∧ r.methods? p.1 p.2 = some methods ∧
    ∀ want ∈ i.methods, ∃ got, LastNamed methods want.name got ∧
      got.params.length = want.params.length ∧ Realizes (implementingType p.1) want got

theorem check_eq_nil_iff (hself : (implementingType p.1).vars = [])
    (hp : r.implements p.1 p.2 = true) : r.check p = [] ↔ r.Fulfilled p := by
  obtain ⟨methods, hm⟩ := Option.isSome_iff_exists.mp hp
  cases hi : r.interface? p.2 with
  | none => simp [check, checkImplementation, hi, Fulfilled]
  | some i =>
      simp only [check, checkImplementation, hi, hm, Option.getD_some, List.flatMap_eq_nil_iff,
        checkMethod_eq_nil_iff, Provides, provided?_eq_some_iff, conforms_iff_realizes hself,
        Fulfilled, Option.some.injEq, exists_eq_left', exists_and_left]

theorem vars_implementingType {t : String}
    (h : ∀ ty, Ty.parse t = .ok ty → ty.freeVars = []) : (implementingType t).vars = [] := by
  unfold implementingType
  split
  next ty hparse => exact Ty.vars_eq_nil_of_freeVars (h ty hparse)
  next => rfl

end reports

theorem conformance_is_exact (r : Registry)
    (hclosed : ∀ t ∈ r.types, ∀ ty, Ty.parse t = .ok ty → ty.freeVars = []) :
    r.pairs.Pairwise ByteBefore ∧
    (∀ t iface, (t, iface) ∈ r.pairs ↔ r.implements t iface = true) ∧
    (∀ ds, r.conformance = ds ↔
      ∃ reports, List.Forall₂ r.Report r.pairs reports ∧ ds = reports.flatten) ∧
    (r.conformance = [] ↔ ∀ p ∈ r.pairs, r.Fulfilled p) := by
  have hself (p : String × String) (hp : p ∈ r.pairs) : (implementingType p.1).vars = [] := by
    obtain ⟨t, ht, hmem⟩ := List.mem_flatMap.mp hp
    obtain ⟨_, _, rfl⟩ := List.mem_map.mp hmem
    exact vars_implementingType (hclosed t ht)
  have hreports {reports : List Diagnostics} :
      List.Forall₂ r.Report r.pairs reports ↔ reports = r.pairs.map r.check :=
    forall₂_iff_eq_map fun p hp ds => report_iff (hself p hp) (mem_pairs.mp hp) ds
  refine ⟨r.pairwise_pairs, fun t iface => mem_pairs, fun ds => ?_, ?_⟩
  · simp only [hreports, exists_eq_left, conformance_eq_flatMap_check, List.flatMap_def, eq_comm]
  · rw [conformance_eq_flatMap_check, List.flatMap_eq_nil_iff]
    exact forall₂_congr fun p hp => check_eq_nil_iff (hself p hp) (mem_pairs.mp hp)

theorem conformance_is_exact_indexed :
    let r := (bare.register "int" "Eq" [⟨"eq", [.int, .str], .bool, .none⟩]).register "Vec<str>"
      "Indexable" [⟨"index", [.unary .vec .str, .int], .str, .none⟩]
    (∀ t ∈ r.types, ∀ ty, Ty.parse t = .ok ty → ty.freeVars = []) ∧
      ∀ ds, r.conformance = ds ↔
        ∃ reports, List.Forall₂ r.Report r.pairs reports ∧ ds = reports.flatten := by
  intro r
  have htypes : r.types = ["Vec<str>", "int"] := by decide +kernel
  have hvec : Ty.parse "Vec<str>" = .ok (.unary .vec .str) := by
    have hname : (Ty.unary .vec .str).render = "Vec<str>" := by decide
    rw [← hname]
    exact Ty.Expressible.parse_render (.unary .vec (.con (by decide))) rfl
  have hint : Ty.parse "int" = .ok .int := by
    have hname : Ty.int.render = "int" := by decide
    rw [← hname]
    exact Ty.Expressible.parse_render (.con (by decide)) rfl
  have hclosed : ∀ t ∈ r.types, ∀ ty, Ty.parse t = .ok ty → ty.freeVars = [] := by
    rw [htypes]
    intro t ht ty hparse
    rcases List.mem_pair.mp ht with rfl | rfl
    · rw [hvec] at hparse
      cases hparse
      rfl
    · rw [hint] at hparse
      cases hparse
      rfl
  exact ⟨hclosed, (conformance_is_exact r hclosed).2.2.1⟩

end Registry

end Toolchain
