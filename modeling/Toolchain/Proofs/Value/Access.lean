import Mathlib.Logic.Relation
import Toolchain.Value.Collection
import Toolchain.Value.Weight

namespace Toolchain.Value

variable {v w x : Value} {id : ObjectId} {stamp : Stamp}

inductive Direct : Value → Value → Prop
  | field {v w : Value} {name : String} {fs : List (String × Value)} :
      v.fields? = some fs → (name, w) ∈ fs → Direct v w
  | payload {stamp : Stamp} {name variant : String} {vs : List Value} {w : Value} :
      w ∈ vs → Direct (.enum stamp name variant vs) w
  | component {stamp : Stamp} {vs : List Value} {w : Value} : w ∈ vs → Direct (.tuple stamp vs) w
  | item {stamp : Stamp} {vs : List Value} {w : Value} : w ∈ vs → Direct (.vec stamp vs) w
  | member {stamp : Stamp} {vs : List Value} {w : Value} : w ∈ vs → Direct (.set stamp vs) w
  | key {v k w : Value} {es : List (Value × Value)} :
      v.entries? = some es → (k, w) ∈ es → Direct v k
  | entry {v k w : Value} {es : List (Value × Value)} :
      v.entries? = some es → (k, w) ∈ es → Direct v w
  | closedOver {stamp : Stamp} {name x : String} {params : List String}
      {captured : List (String × Value)} {w : Value} :
      (x, w) ∈ captured → Direct (.func stamp name params captured) w
  | enclosed {stamp : Stamp} {x : String} {params : List String}
      {captured : List (String × Value)} {w : Value} :
      (x, w) ∈ captured → Direct (.closure stamp params captured) w

/-- `Awaited v w`: waiting for the task `v`, or receiving from the channel `v` often enough, gives
`w`. -/
inductive Awaited : Value → Value → Prop
  | result {v w : Value} {failure : Option String} : v.wait? = some (w, failure) → Awaited v w
  | received {v w rest : Value} : v.receive? = some (w, rest) → Awaited v w
  | later {v x rest w : Value} : v.receive? = some (x, rest) → Awaited rest w → Awaited v w

def Access (v w : Value) : Prop := Direct v w ∨ Awaited v w

def Holds (v : Value) (id : ObjectId) : Prop := Relation.ReflTransGen Access v (.ref id)

def HoldsOpenly (v : Value) (id : ObjectId) : Prop := Relation.ReflTransGen Direct v (.ref id)

theorem reflTransGen_access_of_direct (h : Relation.ReflTransGen Direct v w) :
    Relation.ReflTransGen Access v w :=
  Relation.ReflTransGen.mono (fun _ _ => Or.inl) _ _ h

theorem HoldsOpenly.holds (h : v.HoldsOpenly id) : v.Holds id := reflTransGen_access_of_direct h

theorem mem_referencesAll {vs : List Value} :
    id ∈ referencesAll vs ↔ ∃ w ∈ vs, id ∈ w.references := by
  induction vs with
  | nil => simp [referencesAll]
  | cons w vs ih => simp [referencesAll, ih]

theorem mem_referencesFields {fs : List (String × Value)} :
    id ∈ referencesFields fs ↔ ∃ f ∈ fs, id ∈ f.2.references := by
  induction fs with
  | nil => simp [referencesFields]
  | cons f fs ih => simp [referencesFields, ih]

theorem mem_referencesEntries {es : List (Value × Value)} :
    id ∈ referencesEntries es ↔ ∃ e ∈ es, id ∈ e.1.references ∨ id ∈ e.2.references := by
  induction es with
  | nil => simp [referencesEntries]
  | cons e es ih => simp [referencesEntries, ih, or_assoc]

theorem fields?_eq_some {fs : List (String × Value)} (h : v.fields? = some fs) :
    ∃ stamp name, v = .struct stamp name fs := by
  cases v <;> simp_all [fields?]

theorem entries?_eq_some {es : List (Value × Value)} (h : v.entries? = some es) :
    ∃ stamp, v = .map stamp es := by
  cases v <;> simp_all [entries?]

theorem Direct.references (h : Direct v w) (hid : id ∈ w.references) : id ∈ v.references := by
  cases h with
  | field hv hw =>
      obtain ⟨stamp, name, rfl⟩ := fields?_eq_some hv
      exact mem_referencesFields.mpr ⟨_, hw, hid⟩
  | payload hw | component hw | item hw | member hw => exact mem_referencesAll.mpr ⟨w, hw, hid⟩
  | key hv hk =>
      obtain ⟨stamp, rfl⟩ := entries?_eq_some hv
      exact mem_referencesEntries.mpr ⟨_, hk, .inl hid⟩
  | entry hv hw =>
      obtain ⟨stamp, rfl⟩ := entries?_eq_some hv
      exact mem_referencesEntries.mpr ⟨_, hw, .inr hid⟩
  | closedOver hw | enclosed hw => exact mem_referencesFields.mpr ⟨_, hw, hid⟩

theorem holdsOpenly_of_mem_references (v : Value) (h : id ∈ v.references) : v.HoldsOpenly id := by
  induction v with
  | ref a =>
      rw [references, List.mem_singleton] at h
      exact h ▸ .refl
  | struct stamp name fs ih =>
      obtain ⟨f, hf, hid⟩ := mem_referencesFields.mp h
      exact .head (.field rfl hf) (ih f hf hid)
  | enum stamp name variant vs ih =>
      obtain ⟨w, hw, hid⟩ := mem_referencesAll.mp h
      exact .head (.payload hw) (ih w hw hid)
  | tuple stamp vs ih =>
      obtain ⟨w, hw, hid⟩ := mem_referencesAll.mp h
      exact .head (.component hw) (ih w hw hid)
  | vec stamp vs ih =>
      obtain ⟨w, hw, hid⟩ := mem_referencesAll.mp h
      exact .head (.item hw) (ih w hw hid)
  | set stamp vs ih =>
      obtain ⟨w, hw, hid⟩ := mem_referencesAll.mp h
      exact .head (.member hw) (ih w hw hid)
  | map stamp es ih =>
      obtain ⟨e, he, hid | hid⟩ := mem_referencesEntries.mp h
      · exact .head (.key rfl he) ((ih e he).1 hid)
      · exact .head (.entry rfl he) ((ih e he).2 hid)
  | func stamp name params captured ih =>
      obtain ⟨f, hf, hid⟩ := mem_referencesFields.mp h
      exact .head (.closedOver hf) (ih f hf hid)
  | closure stamp params captured ih =>
      obtain ⟨f, hf, hid⟩ := mem_referencesFields.mp h
      exact .head (.enclosed hf) (ih f hf hid)
  | absent | none | int _ | float _ | bool _ | str _ | type _ | builtin _ _ _ | channel _ _ _ _
  | task _ _ _ _ _ => simp [references] at h

theorem mem_references_iff : id ∈ v.references ↔ v.HoldsOpenly id := by
  refine ⟨holdsOpenly_of_mem_references v, fun h => ?_⟩
  induction h using Relation.ReflTransGen.head_induction_on with
  | refl => simp [references]
  | head hvw _ ih => exact hvw.references ih

/-- What a channel or a task within reach holds is within reach without it. -/
def Overt (v : Value) : Prop :=
  ∀ w x id, Relation.ReflTransGen Direct v w → Awaited w x → x.Holds id → v.HoldsOpenly id

theorem Holds.open_or_awaited (h : v.Holds id) : v.HoldsOpenly id ∨
    ∃ w x, Relation.ReflTransGen Direct v w ∧ Awaited w x ∧ x.Holds id := by
  induction h using Relation.ReflTransGen.head_induction_on with
  | refl => exact .inl .refl
  | @head v w hvw hwid ih =>
      rcases hvw with hdirect | hawaited
      · rcases ih with hopen | ⟨u, x, hwu, hux, hx⟩
        · exact .inl (.head hdirect hopen)
        · exact .inr ⟨u, x, .head hdirect hwu, hux, hx⟩
      · exact .inr ⟨v, w, .refl, hawaited, hwid⟩

theorem holds_of_awaited (hvw : Relation.ReflTransGen Direct v w) (hwx : Awaited w x)
    (hx : x.Holds id) : v.Holds id :=
  (reflTransGen_access_of_direct hvw).trans (.head (.inr hwx) hx)

theorem references_complete_iff (v : Value) :
    (∀ id, id ∈ v.references ↔ v.HoldsOpenly id) ∧ (∀ id ∈ v.references, v.Holds id) ∧
      ((∀ id, v.Holds id ↔ id ∈ v.references) ↔ v.Overt) := by
  refine ⟨fun id => mem_references_iff, fun id h => (mem_references_iff.mp h).holds, ?_⟩
  constructor
  · intro h w x id hvw hwx hx
    exact mem_references_iff.mp ((h id).mp (holds_of_awaited hvw hwx hx))
  · intro h id
    refine ⟨fun hid => mem_references_iff.mpr ?_, fun hid => (mem_references_iff.mp hid).holds⟩
    rcases hid.open_or_awaited with hopen | ⟨w, x, hvw, hwx, hx⟩
    · exact hopen
    · exact h w x id hvw hwx hx

theorem awaited_reference_unseen :
    let queue : Value := .channel 0 1 [.ref 7]
    let job : Value := .task 0 1 (.ref 7) Option.none
    queue.Holds 7 ∧ 7 ∉ queue.references ∧ job.Holds 7 ∧ 7 ∉ job.references := by
  refine ⟨?_, by simp [references], ?_, by simp [references]⟩
  · exact .single (.inr (.received rfl))
  · exact .single (.inr (.result rfl))

end Toolchain.Value
