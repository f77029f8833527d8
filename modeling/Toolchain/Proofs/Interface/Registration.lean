import Toolchain.Proofs.Interface.Declared
import Toolchain.Proofs.Interface.Exactness

namespace Toolchain

structure SignatureText where
  iface : String
  typeName : String
  method : String
  param : Option Nat
  text : String

namespace SignatureText

variable {w : SignatureText}

def fault? (w : SignatureText) : Option SignatureError :=
  (failure? (Ty.parse w.text)).map (SignatureError.mk w.iface w.typeName w.method w.param)

theorem fault?_eq_none_iff : w.fault? = none ↔ (Ty.parse w.text).isOk = true := by
  rw [fault?]
  cases Ty.parse w.text <;> simp [failure?, Except.isOk, Except.toBool]

theorem fault?_eq_some_iff {e : SignatureError} : w.fault? = some e ↔
    ∃ cause, Ty.parse w.text = .error cause ∧
      e = ⟨w.iface, w.typeName, w.method, w.param, cause⟩ := by
  rw [fault?]
  cases Ty.parse w.text <;> simp [failure?, eq_comm]

end SignatureText

namespace ImplementationSpec

variable {s : ImplementationSpec} {m : MethodSpec} {specs specs' : List ImplementationSpec}
  {t i : String}

section texts

def textAt (s : ImplementationSpec) (m : MethodSpec) (param : Option Nat) (text : String) :
    SignatureText :=
  ⟨s.iface, s.typeName, m.name, param, text⟩

def texts (s : ImplementationSpec) : List SignatureText :=
  -- in the order of reading: method by method, the result last
  s.methods.flatMap fun m =>
    (m.params.zipIdx.map fun p => s.textAt m (some p.2) p.1) ++ [s.textAt m none m.result]

theorem failure?_readType (s : ImplementationSpec) (m : MethodSpec) (param : Option Nat)
    (text : String) : failure? (s.readType m param text) = (s.textAt m param text).fault? := by
  rw [readType, SignatureText.fault?, textAt]
  cases Ty.parse text <;> rfl

theorem failure?_readMethod (s : ImplementationSpec) (m : MethodSpec) :
    failure? (s.readMethod m) =
      ((m.params.zipIdx.map fun p => s.textAt m (some p.2) p.1) ++
        [s.textAt m none m.result]).findSome? SignatureText.fault? := by
  have hparams := failure?_mapM (fun p => s.readType m (some p.2) p.1) m.params.zipIdx
  simp only [failure?_readType] at hparams
  rw [List.findSome?_append, List.findSome?_map, Function.comp_def, ← hparams,
    List.findSome?_singleton, ← failure?_readType, readMethod]
  cases m.params.zipIdx.mapM fun p => s.readType m (some p.2) p.1 with
  | error e => rfl
  | ok ts => cases s.readType m none m.result <;> rfl

theorem fault?_eq_findSome? (s : ImplementationSpec) :
    s.fault? = s.texts.findSome? SignatureText.fault? := by
  have hfault : s.fault? = failure? s.read := by
    rw [fault?]
    cases s.read <;> rfl
  rw [hfault, read, failure?_mapM, texts, findSome?_flatMap]
  simp only [failure?_readMethod]

theorem firstFault_eq_some_iff {e : SignatureError} : firstFault specs = some e ↔
    ∃ before w after, specs.flatMap texts = before ++ w :: after ∧
      (∀ w' ∈ before, (Ty.parse w'.text).isOk = true) ∧
      ∃ cause, Ty.parse w.text = .error cause ∧
        e = ⟨w.iface, w.typeName, w.method, w.param, cause⟩ := by
  have hflat : firstFault specs = (specs.flatMap texts).findSome? SignatureText.fault? := by
    rw [firstFault, findSome?_flatMap]
    simp only [fault?_eq_findSome?]
  rw [hflat, List.findSome?_eq_some_iff]
  simp only [SignatureText.fault?_eq_none_iff, SignatureText.fault?_eq_some_iff, and_comm]

end texts

section last

def LastTyped (specs : List ImplementationSpec) (t i : String) (s : ImplementationSpec) : Prop :=
  ∃ before after, specs = before ++ s :: after ∧ s.pair = (t, i) ∧ s.Typed ∧
    ∀ s' ∈ after, s'.pair = (t, i) → ¬ s'.Typed

theorem LastTyped.typed (h : LastTyped specs t i s) : s.Typed := by
  obtain ⟨_, _, _, _, htyped, _⟩ := h
  exact htyped

theorem exists_lastTyped (h : ∃ s ∈ specs, s.pair = (t, i) ∧ s.Typed) :
    ∃ s, LastTyped specs t i s := by
  induction specs with
  | nil => exact absurd h (by simp)
  | cons s₀ specs ih =>
      by_cases hlater : ∃ s ∈ specs, s.pair = (t, i) ∧ s.Typed
      · obtain ⟨s, before, after, rfl, hs⟩ := ih hlater
        exact ⟨s, s₀ :: before, after, rfl, hs⟩
      · have hs₀ : s₀.pair = (t, i) ∧ s₀.Typed := by
          rcases (List.exists_mem_cons_iff ..).mp h with hs | hs
          · exact hs
          · exact absurd hs hlater
        refine ⟨s₀, [], specs, rfl, hs₀.1, hs₀.2, fun s hs hpair htyped => ?_⟩
        exact hlater ⟨s, hs, hpair, htyped⟩

theorem lastTyped_of_nodup (hn : (specs.map pair).Nodup) (hs : s ∈ specs) (hpair : s.pair = (t, i))
    (htyped : s.Typed) : LastTyped specs t i s := by
  obtain ⟨before, after, rfl⟩ := List.append_of_mem hs
  refine ⟨before, after, rfl, hpair, htyped, fun s' hs' hpair' _ => ?_⟩
  rw [List.map_append, List.map_cons] at hn
  have hnot : s.pair ∉ after.map pair := (List.nodup_cons.mp (List.nodup_append.mp hn).2.1).1
  exact hnot (List.mem_map.mpr ⟨s', hs', hpair'.trans hpair.symm⟩)

end last

end ImplementationSpec

namespace Registry

open ImplementationSpec (LastTyped)

variable {r : Registry} {s : ImplementationSpec} {specs specs' : List ImplementationSpec}
  {t i : String} {ms : List Method}

theorem declareAll_append (r : Registry) (specs specs' : List ImplementationSpec) :
    r.declareAll (specs ++ specs') = (r.declareAll specs).declareAll specs' :=
  List.foldl_append

theorem declareAll_keeps {α : Type} {f : Registry → α}
    (hstep : ∀ s ∈ specs, ∀ r, f (r.declare s) = f r) : f (r.declareAll specs) = f r := by
  induction specs generalizing r with
  | nil => rfl
  | cons s specs ih =>
      obtain ⟨hs, hspecs⟩ := List.forall_mem_cons.mp hstep
      rw [declareAll_cons, ih hspecs, hs]

theorem interfaces_declareAll (r : Registry) (specs : List ImplementationSpec) :
    (r.declareAll specs).interfaces = r.interfaces := by
  refine declareAll_keeps (f := Registry.interfaces) fun s _ r => ?_
  rw [declare]
  split <;> rfl

theorem methods?_declare_of_read (hread : s.read = .ok ms) (hpair : s.pair = (t, i)) :
    (r.declare s).methods? t i = some ms := by
  obtain ⟨rfl, rfl⟩ := Prod.mk.inj hpair
  rw [declare, hread]
  simp [methods?_register]

theorem methods?_declare_of_not (h : s.pair = (t, i) → ¬ s.Typed) :
    (r.declare s).methods? t i = r.methods? t i := by
  rw [declare]
  split
  next ms hread =>
    have htyped : s.Typed := ImplementationSpec.exists_read_iff.mp ⟨ms, hread⟩
    have hne : ¬ (s.typeName = t ∧ s.iface = i) := by
      rintro ⟨rfl, rfl⟩
      exact h rfl htyped
    rw [methods?_register, if_neg hne]
  next => rfl

theorem methods?_declareAll_of_not (h : ∀ s ∈ specs, s.pair = (t, i) → ¬ s.Typed) :
    (r.declareAll specs).methods? t i = r.methods? t i :=
  declareAll_keeps (f := fun r => r.methods? t i) fun s hs _ => methods?_declare_of_not (h s hs)

theorem methods?_declareAll_of_last (h : LastTyped specs t i s) (hread : s.read = .ok ms) :
    (r.declareAll specs).methods? t i = some ms := by
  obtain ⟨before, after, rfl, hpair, -, hafter⟩ := h
  rw [declareAll_append, declareAll_cons, methods?_declareAll_of_not hafter,
    methods?_declare_of_read hread hpair]

section order

structure Alike (r r' : Registry) : Prop where
  interfaces : r.interfaces = r'.interfaces
  types : r.types = r'.types
  interfacesOf : ∀ t, r.interfacesOf t = r'.interfacesOf t
  methods? : ∀ t i, r.methods? t i = r'.methods? t i

theorem eq_of_pairwise_text {xs ys : List String}
    (hx : xs.Pairwise fun a b => Encoding.text a < Encoding.text b)
    (hy : ys.Pairwise fun a b => Encoding.text a < Encoding.text b)
    (h : ∀ a, a ∈ xs ↔ a ∈ ys) : xs = ys := by
  have hnodup {zs : List String}
      (hz : zs.Pairwise fun a b => Encoding.text a < Encoding.text b) : zs.Nodup := by
    refine hz.imp fun {a b} hlt heq => ?_
    rw [heq] at hlt
    exact List.lt_irrefl _ hlt
  refine List.Perm.eq_of_pairwise (fun a b _ _ hab hba => ?_) hx hy
    ((List.perm_ext_iff_of_nodup (hnodup hx) (hnodup hy)).mpr h)
  exact absurd hba (List.lt_asymm hab)

theorem mem_types_register {t' : String} :
    t' ∈ (r.register t i ms).types ↔ t = t' ∨ t' ∈ r.types := by
  simp [types, register]

theorem mem_types_declare : t ∈ (r.declare s).types ↔ s.typeName = t ∧ s.Typed ∨ t ∈ r.types := by
  rw [declare, ← ImplementationSpec.exists_read_iff]
  cases s.read with
  | error e => simp
  | ok ms => simp [mem_types_register]

theorem mem_types_declareAll :
    t ∈ (r.declareAll specs).types ↔ t ∈ r.types ∨ ∃ s ∈ specs, s.typeName = t ∧ s.Typed :=
  declareAll_iff (P := fun r => t ∈ r.types) fun _ _ => mem_types_declare

theorem methods?_declareAll_of_perm (hn : (specs.map ImplementationSpec.pair).Nodup)
    (hp : specs'.Perm specs) :
    (r.declareAll specs').methods? t i = (r.declareAll specs).methods? t i := by
  by_cases h : ∃ s ∈ specs, s.pair = (t, i) ∧ s.Typed
  · obtain ⟨s, hs, hpair, htyped⟩ := h
    obtain ⟨ms, hread⟩ := ImplementationSpec.exists_read_iff.mpr htyped
    have hn' : (specs'.map ImplementationSpec.pair).Nodup := (hp.map _).nodup_iff.mpr hn
    have hlast := ImplementationSpec.lastTyped_of_nodup hn hs hpair htyped
    have hlast' := ImplementationSpec.lastTyped_of_nodup hn' (hp.mem_iff.mpr hs) hpair htyped
    rw [methods?_declareAll_of_last hlast hread, methods?_declareAll_of_last hlast' hread]
  · have hnot : ∀ s ∈ specs, s.pair = (t, i) → ¬ s.Typed :=
      fun s hs hpair htyped => h ⟨s, hs, hpair, htyped⟩
    rw [methods?_declareAll_of_not hnot,
      methods?_declareAll_of_not fun s hs => hnot s (hp.mem_iff.mp hs)]

theorem declareAll_alike_of_perm (hn : (specs.map ImplementationSpec.pair).Nodup)
    (hp : specs'.Perm specs) : Alike (r.declareAll specs') (r.declareAll specs) where
  interfaces := by rw [interfaces_declareAll, interfaces_declareAll]
  types := by
    refine eq_of_pairwise_text (pairwise_text_keys _) (pairwise_text_keys _) fun t => ?_
    have hmem : t ∈ (r.declareAll specs').types ↔ t ∈ (r.declareAll specs).types := by
      simp only [mem_types_declareAll, hp.mem_iff]
    exact hmem
  interfacesOf t := by
    refine eq_of_pairwise_text (pairwise_text_interfacesOf _ t) (pairwise_text_interfacesOf _ t)
      fun i => ?_
    rw [mem_interfacesOf, mem_interfacesOf, implements, implements,
      methods?_declareAll_of_perm hn hp]
  methods? t i := methods?_declareAll_of_perm hn hp

end order

theorem registration_is_atomic (r : Registry) (specs : List ImplementationSpec) :
    let r' := r.declareAll specs
    (∀ t i s, LastTyped specs t i s →
      ∃ ms, List.Forall₂ MethodSpec.Describes s.methods ms ∧ r'.methods? t i = some ms) ∧
    (∀ t i, (¬ ∃ s, LastTyped specs t i s) → r'.methods? t i = r.methods? t i) ∧
    r'.interfaces = r.interfaces ∧
    (firstFault specs = none ↔ ∀ s ∈ specs, s.Typed) ∧
    (∀ e, firstFault specs = some e ↔
      ∃ before w after, specs.flatMap ImplementationSpec.texts = before ++ w :: after ∧
        (∀ w' ∈ before, (Ty.parse w'.text).isOk = true) ∧
        ∃ cause, Ty.parse w.text = .error cause ∧
          e = ⟨w.iface, w.typeName, w.method, w.param, cause⟩) ∧
    ((specs.map ImplementationSpec.pair).Nodup → ∀ specs', specs'.Perm specs →
      Alike (r.declareAll specs') r') := by
  refine ⟨fun t i s hlast => ?_, fun t i hnone => ?_, interfaces_declareAll r specs,
    firstFault_eq_none_iff, fun e => ImplementationSpec.firstFault_eq_some_iff,
    fun hn specs' hp => declareAll_alike_of_perm hn hp⟩
  · obtain ⟨ms, hread⟩ := ImplementationSpec.exists_read_iff.mpr hlast.typed
    exact ⟨ms, ImplementationSpec.read_eq_ok_iff.mp hread, methods?_declareAll_of_last hlast hread⟩
  · refine methods?_declareAll_of_not fun s hs hpair htyped => hnone ?_
    exact ImplementationSpec.exists_lastTyped ⟨s, hs, hpair, htyped⟩

end Registry

end Toolchain
