import Toolchain.Interface.Spec
import Toolchain.Proofs.Traversal

namespace Toolchain

def MethodSpec.Typed (m : MethodSpec) : Prop :=
  ∀ text ∈ m.params ++ [m.result], (Ty.parse text).isOk = true

instance (m : MethodSpec) : Decidable m.Typed :=
  inferInstanceAs (Decidable (∀ text ∈ m.params ++ [m.result], (Ty.parse text).isOk = true))

structure MethodSpec.Describes (m : MethodSpec) (got : Method) : Prop where
  name : got.name = m.name
  params : List.Forall₂ (fun text t => Ty.parse text = .ok t) m.params got.params
  result : Ty.parse m.result = .ok got.result
  span : got.span = .none

theorem MethodSpec.exists_describes_iff {m : MethodSpec} : (∃ got, m.Describes got) ↔ m.Typed := by
  rw [Typed, List.forall_mem_append, List.forall_mem_singleton]
  simp only [isOk_iff, ← exists_forall₂_iff]
  constructor
  · rintro ⟨got, _, hparams, hresult, _⟩
    exact ⟨⟨got.params, hparams⟩, got.result, hresult⟩
  · rintro ⟨⟨params, hparams⟩, result, hresult⟩
    exact ⟨⟨m.name, params, result, .none⟩, rfl, hparams, hresult, rfl⟩

namespace ImplementationSpec

variable {s : ImplementationSpec} {m : MethodSpec} {specs : List ImplementationSpec}

def pair (s : ImplementationSpec) : String × String := (s.typeName, s.iface)

def Typed (s : ImplementationSpec) : Prop := ∀ m ∈ s.methods, m.Typed

instance (s : ImplementationSpec) : Decidable s.Typed :=
  inferInstanceAs (Decidable (∀ m ∈ s.methods, m.Typed))

theorem readType_eq_ok_iff {param : Option Nat} {text : String} {t : Ty} :
    s.readType m param text = .ok t ↔ Ty.parse text = .ok t := by
  rw [readType]
  cases Ty.parse text <;> simp [Except.mapError]

theorem readParams_eq_ok_iff {ts : List Ty} :
    (m.params.zipIdx.mapM fun (text, i) => s.readType m (some i) text) = .ok ts ↔
      List.Forall₂ (fun text t => Ty.parse text = .ok t) m.params ts := by
  rw [mapM_eq_ok_iff]
  simp only [readType_eq_ok_iff]
  conv_rhs => rw [← List.zipIdx_map_fst 0 m.params, List.forall₂_map_left_iff]

theorem readMethod_eq_ok_iff {got : Method} : s.readMethod m = .ok got ↔ m.Describes got := by
  obtain ⟨name, params, result, span⟩ := got
  rw [readMethod]
  constructor
  · intro h
    split at h
    next => simp at h
    next ts hts =>
      cases hresult : s.readType m none m.result with
      | error e => simp [hresult, Except.map] at h
      | ok u =>
          simp only [hresult, Except.map, Except.ok.injEq, Method.mk.injEq] at h
          obtain ⟨rfl, rfl, rfl, rfl⟩ := h
          exact ⟨rfl, readParams_eq_ok_iff.mp hts, readType_eq_ok_iff.mp hresult, rfl⟩
  · rintro ⟨rfl, hparams, hresult, rfl⟩
    rw [readParams_eq_ok_iff.mpr hparams, readType_eq_ok_iff.mpr hresult]
    rfl

theorem read_eq_ok_iff {ms : List Method} :
    s.read = .ok ms ↔ List.Forall₂ MethodSpec.Describes s.methods ms := by
  rw [read, mapM_eq_ok_iff]
  simp only [readMethod_eq_ok_iff]

theorem exists_read_iff : (∃ ms, s.read = .ok ms) ↔ s.Typed := by
  simp only [read_eq_ok_iff, exists_forall₂_iff, MethodSpec.exists_describes_iff, Typed]

theorem fault?_eq_none_iff : s.fault? = none ↔ s.Typed := by
  rw [← exists_read_iff, fault?]
  cases s.read <;> simp

end ImplementationSpec

theorem firstFault_eq_none_iff {specs : List ImplementationSpec} :
    firstFault specs = none ↔ ∀ s ∈ specs, s.Typed := by
  simp only [firstFault, List.findSome?_eq_none_iff, ImplementationSpec.fault?_eq_none_iff]

namespace Registry

variable {r : Registry} {t i : String} {specs : List ImplementationSpec}

theorem implements_register_iff {t' i' : String} {ms : List Method} :
    (r.register t i ms).implements t' i' = true ↔ t = t' ∧ i = i' ∨ r.implements t' i' = true := by
  rw [implements, methods?_register, implements]
  split
  next h => simp [h]
  next h => simp [h]

theorem implements_declare_iff {s : ImplementationSpec} : (r.declare s).implements t i = true ↔
    s.typeName = t ∧ s.iface = i ∧ s.Typed ∨ r.implements t i = true := by
  rw [declare, ← ImplementationSpec.exists_read_iff]
  cases s.read with
  | error e => simp
  | ok ms => simp [implements_register_iff]

theorem declareAll_cons (r : Registry) (s : ImplementationSpec) (specs : List ImplementationSpec) :
    r.declareAll (s :: specs) = (r.declare s).declareAll specs := rfl

theorem declareAll_iff {P : Registry → Prop} {Q : ImplementationSpec → Prop}
    (hstep : ∀ r s, P (r.declare s) ↔ Q s ∨ P r) :
    P (r.declareAll specs) ↔ P r ∨ ∃ s ∈ specs, Q s := by
  induction specs generalizing r with
  | nil => simp [declareAll]
  | cons s specs ih =>
      rw [declareAll_cons, ih, hstep, List.exists_mem_cons_iff, or_comm (a := Q s), or_assoc]

theorem implements_declareAll_iff : (r.declareAll specs).implements t i = true ↔
    r.implements t i = true ∨ ∃ s ∈ specs, s.typeName = t ∧ s.iface = i ∧ s.Typed :=
  declareAll_iff (P := fun r => r.implements t i = true) fun _ _ => implements_declare_iff

theorem implements_foldl_register_iff {names : List String} {iface : String}
    {ms : String → List Method} :
    (names.foldl (fun r name => r.register name iface (ms name)) r).implements t i = true ↔
      i = iface ∧ t ∈ names ∨ r.implements t i = true := by
  induction names generalizing r with
  | nil => simp
  | cons name names ih =>
      rw [List.foldl_cons, ih, implements_register_iff, List.mem_cons]
      constructor
      · rintro (⟨hi, ht⟩ | ⟨ht, hi⟩ | h)
        · exact .inl ⟨hi, .inr ht⟩
        · exact .inl ⟨hi.symm, .inl ht.symm⟩
        · exact .inr h
      · rintro (⟨hi, ht | ht⟩ | h)
        · exact .inr (.inl ⟨ht.symm, hi.symm⟩)
        · exact .inl ⟨hi, ht⟩
        · exact .inr (.inr h)

theorem implements_bare : bare.implements t i = false := by
  have hnone : bare.implementations = ∅ := rfl
  simp [implements, methods?, hnone]

theorem implements_seed_bare_iff :
    bare.seed.implements t i = true ↔ i = Interface.addable.name ∧ t ∈ summable := by
  rw [seed, implements_foldl_register_iff]
  simp [implements_bare]

end Registry

end Toolchain
