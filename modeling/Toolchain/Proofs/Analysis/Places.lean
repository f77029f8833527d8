import Toolchain.Diagnostic.Render
import Toolchain.Proofs.Analysis.FullReport

namespace Toolchain

namespace Registry

variable {r : Registry}

structure Unplaced (r : Registry) : Prop where
  interface : ∀ name i, r.interface? name = some i → i.span = .none
  method : ∀ t name ms, r.methods? t name = some ms → ∀ m ∈ ms, m.span = .none

theorem Unplaced.define {i : Interface} (h : r.Unplaced) (hi : i.span = .none) :
    (r.define i).Unplaced where
  interface name j hj := by
    rw [interface?, Registry.define, Std.TreeMap.getElem?_insert] at hj
    split at hj
    · exact Option.some.inj hj ▸ hi
    · exact h.interface name j hj
  method := h.method

theorem Unplaced.register {ms : List Method} (h : r.Unplaced) (hms : ∀ m ∈ ms, m.span = .none)
    (t name : String) : (r.register t name ms).Unplaced where
  interface := h.interface
  method t' name' ms' hms' := by
    rw [methods?_register] at hms'
    split at hms'
    · exact Option.some.inj hms' ▸ hms
    · exact h.method t' name' ms' hms'

theorem unplaced_bare : bare.Unplaced := by
  have hempty : (⟨∅, ∅⟩ : Registry).Unplaced := ⟨by simp [interface?], by simp [methods?]⟩
  have hbuiltin : ∀ i ∈ Interface.builtin, i.span = .none := by decide
  exact List.foldlRecOn _ _ hempty fun r hr i hi => hr.define (hbuiltin i hi)

theorem Unplaced.seed (h : r.Unplaced) : r.seed.Unplaced := by
  refine List.foldlRecOn _ _ h fun r hr name _ => hr.register ?_ _ _
  exact List.forall_mem_singleton.mpr rfl

theorem span_of_readMethod {s : ImplementationSpec} {m : MethodSpec} {m' : Method}
    (h : s.readMethod m = .ok m') : m'.span = .none := by
  unfold ImplementationSpec.readMethod at h
  split at h
  · exact absurd h (by simp)
  · cases hresult : s.readType m none m.result with
    | error e => exact absurd h (by simp [hresult, Except.map])
    | ok t =>
        rw [hresult] at h
        exact (Except.ok.inj h) ▸ rfl

theorem Unplaced.declare (h : r.Unplaced) (s : ImplementationSpec) : (r.declare s).Unplaced := by
  unfold Registry.declare
  split
  next ms hread => exact h.register (forall_mem_of_mapM (fun _ _ => span_of_readMethod) hread) _ _
  next => exact h

theorem Unplaced.declareAll (h : r.Unplaced) (specs : List ImplementationSpec) :
    (r.declareAll specs).Unplaced :=
  List.foldlRecOn _ _ h fun _ hr s _ => hr.declare s

theorem span_of_mem_checkMethod {t : String} {i : Interface} {ms : List Method} {want : Method}
    (hi : i.span = .none) (hms : ∀ m ∈ ms, m.span = .none) :
    ∀ d ∈ checkMethod t i ms want, d.span = .none := by
  intro d hd
  unfold checkMethod at hd
  dsimp only at hd
  split at hd
  · exact List.mem_singleton.mp hd ▸ hi
  next got hgot =>
    have hspan : got.span = .none := hms got (List.mem_reverse.mp (List.mem_of_find?_eq_some hgot))
    split at hd
    · exact List.mem_singleton.mp hd ▸ hspan
    · split at hd
      · exact absurd hd List.not_mem_nil
      · exact List.mem_singleton.mp hd ▸ hspan

theorem Unplaced.span_of_mem_conformance (h : r.Unplaced) :
    ∀ d ∈ r.conformance, d.span = .none := by
  intro d hd
  rw [conformance_eq_flatMap_check] at hd
  obtain ⟨p, _, hd⟩ := List.mem_flatMap.mp hd
  unfold check checkImplementation at hd
  split at hd
  · exact List.mem_singleton.mp hd ▸ rfl
  next i hi =>
    obtain ⟨want, _, hd⟩ := List.mem_flatMap.mp hd
    refine span_of_mem_checkMethod (h.interface _ i hi) (fun m hm => ?_) d hd
    cases hms : r.methods? p.1 p.2 with
    | none => exact absurd hm (by simp [hms])
    | some ms => exact h.method _ _ ms hms m (by simpa [hms] using hm)

end Registry

theorem Settings.unplaced_registry (s : Settings) : s.registry.Unplaced :=
  Registry.unplaced_bare.seed.declareAll s.implementations

namespace Diagnostic

def places (d : Diagnostic) : List Span :=
  (if d.span.isNone then [] else [d.span]) ++ d.secondary ++ d.suggestions.map (·.span)

def Within (d : Diagnostic) (file : FileId) : Prop := ∀ s ∈ d.places, s.file = file

end Diagnostic

namespace SourceUnit

variable {u : SourceUnit} {s : Settings} {label : String} {archive : Option Archive}

theorem file_span (u : SourceUnit) (start stop : Int) : (u.span start stop).file = u.file := by
  unfold span Span.ordered
  split <;> rfl

theorem file_of_mem_typeErrors {d : Diagnostic} (hd : d ∈ u.typeErrors) : d.span.file = u.file := by
  have hkind (kind : String) (bs : List Binding) (hd : d ∈ bs.filterMap (u.typeError? kind)) :
      d.span.file = u.file := by
    obtain ⟨b, _, hb⟩ := List.mem_filterMap.mp hd
    unfold typeError? at hb
    split at hb
    · exact absurd hb (by simp)
    · rw [← Option.some.inj hb]
      exact u.file_span _ _
  simp only [typeErrors, List.mem_append] at hd
  rcases hd with (hd | hd) | hd
  · exact hkind _ _ hd
  · exact hkind _ _ hd
  · exact hkind _ _ hd

theorem place_of_mem_diagnostics {d : Diagnostic}
    (hd : d ∈ (u.analysed s label archive).diagnostics) :
    d.span = .none ∨ d.span.file = u.file := by
  rw [diagnostics_analysed] at hd
  have hmem := u.reports_subset s (Diagnostics.truncate_subset _ _ hd)
  rw [checks, solve_constraints_eq, List.mem_append, List.mem_append] at hmem
  rcases hmem with htype | hunmet | hbroken
  · exact .inr (file_of_mem_typeErrors htype)
  · obtain ⟨_, _, rfl⟩ := List.mem_map.mp hunmet
    exact .inr (u.file_span _ _)
  · split at hbroken
    · exact .inl (s.unplaced_registry.span_of_mem_conformance d hbroken)
    · exact absurd hbroken List.not_mem_nil

theorem within_of_mem_diagnostics :
    ∀ d ∈ (u.analysed s label archive).diagnostics, d.Within u.file := by
  intro d hd place hplace
  have hspan := place_of_mem_diagnostics hd
  obtain ⟨_, _, _, _, span, rfl⟩ := u.eq_of_mem_diagnostics s label archive hd
  have hown : span.isNone = false ∧ place = span := by simpa [Diagnostic.places] using hplace
  rw [hown.2]
  refine hspan.resolve_left fun hnone => ?_
  have hplaced : ¬ span = .none := by simpa [Span.isNone] using hown.1
  exact hplaced hnone

end SourceUnit

namespace Renderer

variable {r r' : Renderer} {d : Diagnostic} {ds : Diagnostics}

theorem lines_congr (hcolor : r.color = r'.color)
    (hplaces : ∀ s ∈ d.places, r.location s = r'.location s) : r.lines d = r'.lines d := by
  have hpaint : r.paint = r'.paint := by
    funext code s
    rw [paint, paint, hcolor]
  have hmain : d.span.isNone = false → r.location d.span = r'.location d.span := fun hspan =>
    hplaces _ (by simp [Diagnostic.places, hspan])
  have hsecondary : ∀ s ∈ d.secondary, r.location s = r'.location s := fun s hs =>
    hplaces s (by simp [Diagnostic.places, hs])
  have hsuggestions : ∀ s ∈ d.suggestions, r.location s.span = r'.location s.span := fun s hs =>
    hplaces _ (by simpa [Diagnostic.places] using .inr (.inr ⟨s, hs, rfl⟩))
  unfold lines
  rw [hpaint]
  refine congrArg (_ :: ·) (congrArg (· ++ _) (congrArg₂ (· ++ ·) (congrArg₂ (· ++ ·) ?_ ?_) ?_))
  · cases hspan : d.span.isNone with
    | true => rfl
    | false => rw [hmain hspan]
  · exact List.map_congr_left fun s hs => by rw [hsecondary s hs]
  · exact List.map_congr_left fun s hs => by rw [hsuggestions s hs]

theorem allLines_congr (hcolor : r.color = r'.color)
    (hplaces : ∀ d ∈ ds, ∀ s ∈ d.places, r.location s = r'.location s) :
    r.allLines ds = r'.allLines ds := by
  have hlines : ds.flatMap r.lines = ds.flatMap r'.lines :=
    List.flatMap_congr fun d hd => lines_congr hcolor (hplaces d hd)
  rw [allLines, allLines, hlines]

theorem location_nameFile (r : Renderer) (name : String) (s : Span) :
    (r.nameFile s.file name).location s = name ++ ":" ++ s.renderRange := by
  rw [location, fileName, nameFile, List.lookup_cons_self, Option.getD_some]

end Renderer

theorem Diagnostic.Within.location {d : Diagnostic} {file : FileId} (hd : d.Within file)
    (r : Renderer) (name : String) :
    ∀ s ∈ d.places, (r.nameFile file name).location s = name ++ ":" ++ s.renderRange :=
  fun s hs => hd s hs ▸ r.location_nameFile name s

end Toolchain
