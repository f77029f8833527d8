import Mathlib.Data.Set.Function
import Mathlib.Logic.Equiv.Basic
import Toolchain.Proofs.Interface.Exactness

namespace Toolchain

def renameVar (ρ : String → String) (n : String) : String := if n = Ty.selfName then n else ρ n

def Ty.rename (ρ : String → String) (t : Ty) : Ty := t.under fun n => .var (renameVar ρ n)

def Method.rename (ρ : String → String) (m : Method) : Method :=
  { m with params := m.params.map (Ty.rename ρ), result := m.result.rename ρ }

def Interface.rename (ρ : String → String) (i : Interface) : Interface :=
  { i with methods := i.methods.map (Method.rename ρ) }

def Interface.vars (i : Interface) : List String := i.methods.flatMap (·.type.vars)

theorem Method.under_type_rename (ρ : String → String) (θ : String → Ty) (m : Method) :
    (m.rename ρ).type.under θ = m.type.under fun n => θ (renameVar ρ n) := by
  have hty : (m.rename ρ).type = m.type.under fun n => .var (renameVar ρ n) := by
    simp only [Method.type, rename, Ty.under, Ty.underAll_eq_map]
    rfl
  rw [hty, Ty.under_under]
  rfl

theorem Method.rename_id (m : Method) : m.rename id = m := by
  have hty (t : Ty) : t.rename id = t := by
    have hid : (fun n => Ty.var (renameVar id n)) = .var := by
      funext n
      simp [renameVar]
    rw [Ty.rename, hid, Ty.under_var]
  simp [rename, hty, List.map_id'' hty]

namespace Registry

variable {r : Registry} {self : Ty} {want got : Method} {ρ : String → String}
  {θ θ' η η' : String → Ty} {iface t : String} {i : Interface} {k : Nat}

def rename (r : Registry) (iface : String) (ρ : String → String) : Registry :=
  { r with interfaces := r.interfaces.modify iface (Interface.rename ρ) }

def Fits (self : Ty) (want got : Method) (θ η : String → Ty) : Prop :=
  want.type.under (withSelf (self.under η) θ) = got.type

/-- A variable of the declaration whose new name is also one of the implementing type stands for
the same in both. -/
def Coherent (ρ : String → String) (self : Ty) (want : Method) (θ η : String → Ty) : Prop :=
  Ty.selfName ∈ want.type.vars →
    ∀ n ∈ want.type.vars, n ≠ Ty.selfName → ρ n ∈ self.vars → θ n = η (ρ n)

structure Distinguishes (ρ : String → String) (names : List String) : Prop where
  injOn : Set.InjOn ρ {n | n ∈ names ∧ n ≠ Ty.selfName}
  avoids : ∀ n ∈ names, n ≠ Ty.selfName → ρ n ≠ Ty.selfName

theorem Distinguishes.mono {names more : List String} (h : Distinguishes ρ more)
    (hsub : names ⊆ more) : Distinguishes ρ names where
  injOn := by
    refine h.injOn.mono ?_
    rintro n ⟨hn, hne⟩
    exact ⟨hsub hn, hne⟩
  avoids := fun n hn => h.avoids n (hsub hn)

theorem distinguishes_id (names : List String) : Distinguishes id names where
  injOn := Function.injective_id.injOn
  avoids := fun _ _ h => h

theorem Distinguishes.exists_assignment {names : List String} (hρ : Distinguishes ρ names)
    (θ η : String → Ty) : ∃ φ : String → Ty,
      (∀ n ∈ names, n ≠ Ty.selfName → φ (ρ n) = θ n) ∧
      ∀ m, (∀ n ∈ names, n ≠ Ty.selfName → ρ n ≠ m) → φ m = η m := by
  let declared := {n | n ∈ names ∧ n ≠ Ty.selfName}
  have hinj : Function.Injective fun n : declared => ρ n := Set.injOn_iff_injective.mp hρ.injOn
  refine ⟨Function.extend (fun n : declared => ρ n) (fun n => θ n) η, ?_, ?_⟩
  · intro n hn hne
    exact hinj.extend_apply (fun n : declared => θ n) η ⟨n, hn, hne⟩
  · intro m hm
    refine Function.extend_apply' _ _ _ ?_
    rintro ⟨⟨n, hn, hne⟩, rfl⟩
    exact hm n hn hne rfl

theorem conforms_rename_iff (hρ : Distinguishes ρ want.type.vars) :
    conforms self (want.rename ρ) got = true ↔
      ∃ θ η, Fits self want got θ η ∧ Coherent ρ self want θ η := by
  have hrename (φ : String → Ty) :
      (want.rename ρ).type.under (withSelf (self.under φ) φ) =
        want.type.under (withSelf (self.under φ) fun n => φ (ρ n)) := by
    rw [Method.under_type_rename, Ty.under_congr_iff]
    intro n hn
    by_cases hne : n = Ty.selfName
    · simp [withSelf, renameVar, hne]
    · simp [withSelf, renameVar, hne, hρ.avoids n hn hne]
  rw [conforms_iff]
  simp only [hrename]
  constructor
  · rintro ⟨φ, hφ⟩
    exact ⟨fun n => φ (ρ n), φ, hφ, fun _ n _ _ _ => rfl⟩
  · rintro ⟨θ, η, hfits, hcoherent⟩
    obtain ⟨φ, hφ, hother⟩ := hρ.exists_assignment θ η
    refine ⟨φ, Eq.trans (Ty.under_congr_iff.mpr fun n hn => ?_) hfits⟩
    by_cases hne : n = Ty.selfName
    · subst hne
      have hself : self.under φ = self.under η := by
        refine Ty.under_congr_iff.mpr fun m hm => ?_
        -- A variable of the implementing type is captured if a variable gets its name.
        by_cases hcaptured : ∃ n ∈ want.type.vars, n ≠ Ty.selfName ∧ ρ n = m
        · obtain ⟨n', hn', hne', rfl⟩ := hcaptured
          rw [hφ n' hn' hne', hcoherent hn n' hn' hne' hm]
        · exact hother m fun n' hn' hne' heq => hcaptured ⟨n', hn', hne', heq⟩
      simp [withSelf, hself]
    · simp [withSelf, hne, hφ n hn hne]

theorem Fits.unique (h : Fits self want got θ η) (h' : Fits self want got θ' η') :
    (∀ n ∈ want.type.vars, n ≠ Ty.selfName → θ n = θ' n) ∧
      (Ty.selfName ∈ want.type.vars → ∀ m ∈ self.vars, η m = η' m) := by
  have hall := Ty.under_congr_iff.mp (Eq.trans h h'.symm)
  constructor
  · intro n hn hne
    simpa [withSelf, hne] using hall n hn
  · intro hself
    exact Ty.under_congr_iff.mp (by simpa [withSelf] using hall _ hself)

theorem Fits.coherent_iff (h : Fits self want got θ η) (h' : Fits self want got θ' η') :
    Coherent ρ self want θ η ↔ Coherent ρ self want θ' η' := by
  obtain ⟨hθ, hη⟩ := h.unique h'
  unfold Coherent
  refine forall_congr' fun hself => forall₄_congr fun n hn hne hm => ?_
  rw [hθ n hn hne, hη hself _ hm]

theorem Fits.conforms_rename_iff (h : Fits self want got θ η)
    (hρ : Distinguishes ρ want.type.vars) :
    conforms self (want.rename ρ) got = true ↔ Coherent ρ self want θ η := by
  rw [Registry.conforms_rename_iff hρ]
  constructor
  · rintro ⟨θ', η', h', hcoherent⟩
    exact (h'.coherent_iff h).mp hcoherent
  · exact fun hcoherent => ⟨θ, η, h, hcoherent⟩

theorem conforms_iff_exists_fits : conforms self want got = true ↔
    ∃ θ η, Fits self want got θ η ∧ Coherent id self want θ η := by
  rw [← conforms_rename_iff (distinguishes_id _), Method.rename_id]

theorem Fits.conforms_iff (h : Fits self want got θ η) :
    conforms self want got = true ↔ Coherent id self want θ η := by
  rw [← h.conforms_rename_iff (distinguishes_id _), Method.rename_id]

theorem conforms_rename_congr_iff (self : Ty) (got : Method) (hρ : Distinguishes ρ want.type.vars) :
    (conforms self (want.rename ρ) got = true ↔ conforms self want got = true) ↔
      ∀ θ η, Fits self want got θ η →
        (Coherent ρ self want θ η ↔ Coherent id self want θ η) := by
  constructor
  · intro h θ η hfits
    rw [← hfits.conforms_rename_iff hρ, h, hfits.conforms_iff]
  · intro h
    rw [conforms_rename_iff hρ, conforms_iff_exists_fits]
    refine exists_congr fun θ => exists_congr fun η => and_congr_right fun hfits => ?_
    exact h θ η hfits

/-- If the provided method fits with the variables of declaration and type kept apart, the names
that they share do as much harm after the renaming as before. -/
def Hygienic (ρ : String → String) (t : String) (methods : List Method) (want : Method) : Prop :=
  ∀ got, LastNamed methods want.name got → got.params.length = want.params.length →
    ∀ θ η, Fits (implementingType t) want got θ η →
      (Coherent ρ (implementingType t) want θ η ↔ Coherent id (implementingType t) want θ η)

theorem provides_rename_iff (hρ : Distinguishes ρ want.type.vars) :
    (Provides t methods (want.rename ρ) ↔ Provides t methods want) ↔
      Hygienic ρ t methods want := by
  have hlen : (want.rename ρ).params.length = want.params.length := by simp [Method.rename]
  have hname : (want.rename ρ).name = want.name := rfl
  simp only [Provides, Hygienic, hlen, hname, ← provided?_eq_some_iff]
  cases hp : provided? methods want.name with
  | none => simp
  | some got =>
      by_cases hl : got.params.length = want.params.length
      · simpa [hl] using conforms_rename_congr_iff (implementingType t) got hρ
      · simp [hl]

def Reported (r : Registry) (t iface : String) (k : Nat) : Prop :=
  ∃ i methods want, r.interface? iface = some i ∧ r.methods? t iface = some methods ∧
    i.methods[k]? = some want ∧ checkMethod t i methods want ≠ []

theorem interface?_rename (r : Registry) (iface j : String) (ρ : String → String) :
    (r.rename iface ρ).interface? j =
      if iface = j then (r.interface? j).map (Interface.rename ρ) else r.interface? j := by
  simp only [rename, interface?, Std.TreeMap.getElem?_modify, Std.LawfulEqCmp.compare_eq_iff_eq]
  split
  next h => rw [h]
  next => rfl

theorem reported_rename_of_ne {j : String} (h : iface ≠ j) :
    (r.rename iface ρ).Reported t j k ↔ r.Reported t j k := by
  simp only [Reported, interface?_rename, if_neg h]
  rfl

theorem reported_iff (hi : r.interface? iface = some i) : r.Reported t iface k ↔
    ∃ methods, r.methods? t iface = some methods ∧
      ∃ want, i.methods[k]? = some want ∧ ¬ Provides t methods want := by
  simp [Reported, hi, checkMethod_eq_nil_iff]

theorem reported_rename_iff (hi : r.interface? iface = some i) :
    (r.rename iface ρ).Reported t iface k ↔
      ∃ methods, r.methods? t iface = some methods ∧
        ∃ want, i.methods[k]? = some want ∧ ¬ Provides t methods (want.rename ρ) := by
  have hi' : (r.rename iface ρ).interface? iface = some (i.rename ρ) := by
    rw [interface?_rename, if_pos rfl, hi, Option.map_some]
  rw [reported_iff hi']
  simp [Interface.rename, rename, methods?]

theorem hygienic_of_apart (h : ∀ n ∈ want.type.vars, n ≠ Ty.selfName →
      n ∉ (implementingType t).vars ∧ ρ n ∉ (implementingType t).vars) :
    Hygienic ρ t methods want := by
  intro got _ _ θ η _
  have hafter : Coherent ρ (implementingType t) want θ η :=
    fun _ n hn hne hm => absurd hm (h n hn hne).2
  have hbefore : Coherent id (implementingType t) want θ η :=
    fun _ n hn hne hm => absurd hm (h n hn hne).1
  exact iff_of_true hafter hbefore

theorem reports_survive_renaming_iff (r : Registry) (iface : String) (i : Interface)
    (ρ : String → String) (hi : r.interface? iface = some i) (hρ : Distinguishes ρ i.vars) :
    ((∀ t j k, (r.rename iface ρ).Reported t j k ↔ r.Reported t j k) ↔
      ∀ t methods, r.methods? t iface = some methods →
        ∀ want ∈ i.methods, Hygienic ρ t methods want) ∧
    ((∀ t, r.implements t iface = true → ∀ n ∈ i.vars, n ≠ Ty.selfName →
        n ∉ (implementingType t).vars ∧ ρ n ∉ (implementingType t).vars) →
      ∀ t j k, (r.rename iface ρ).Reported t j k ↔ r.Reported t j k) := by
  have hvars (want : Method) (hw : want ∈ i.methods) : want.type.vars ⊆ i.vars :=
    fun n hn => List.mem_flatMap.mpr ⟨want, hw, hn⟩
  have hiff : (∀ t j k, (r.rename iface ρ).Reported t j k ↔ r.Reported t j k) ↔
      ∀ t methods, r.methods? t iface = some methods →
        ∀ want ∈ i.methods, Hygienic ρ t methods want := by
    constructor
    · intro h t methods hm want hw
      obtain ⟨k, hk⟩ := List.getElem?_of_mem hw
      have hreported := h t iface k
      rw [reported_rename_iff hi, reported_iff hi] at hreported
      refine (provides_rename_iff (hρ.mono (hvars want hw))).mp (not_iff_not.mp ?_)
      simpa [hm, hk] using hreported
    · intro h t j k
      by_cases hj : iface = j
      · subst hj
        rw [reported_rename_iff hi, reported_iff hi]
        refine exists_congr fun methods => and_congr_right fun hm => ?_
        refine exists_congr fun want => and_congr_right fun hk => not_congr ?_
        have hw := List.mem_of_getElem? hk
        exact (provides_rename_iff (hρ.mono (hvars want hw))).mpr (h t methods hm want hw)
      · exact reported_rename_of_ne hj
  refine ⟨hiff, fun h => hiff.mpr fun t methods hm want hw => hygienic_of_apart fun n hn => ?_⟩
  exact h t (Option.isSome_iff_exists.mpr ⟨methods, hm⟩) n (hvars want hw hn)

theorem swap_ne_self {n : String} (h : n ≠ Ty.selfName) :
    Equiv.swap "T" "U" n ≠ Ty.selfName := by
  have hself : Equiv.swap "T" "U" Ty.selfName = Ty.selfName :=
    Equiv.swap_apply_of_ne_of_ne (by decide) (by decide)
  exact fun heq => h ((Equiv.swap "T" "U").injective (heq.trans hself.symm))

theorem reports_survive_renaming_iff_indexable :
    let r := bare.register "Vec<'T>" "Indexable"
      [⟨"index", [.unary .vec (.var "T"), .int], .str, .none⟩]
    let ρ := Equiv.swap "T" "U"
    r.interface? "Indexable" = some Interface.indexable ∧
    Distinguishes ρ Interface.indexable.vars ∧
    ((∀ t j k, (r.rename "Indexable" ρ).Reported t j k ↔ r.Reported t j k) ↔
      ∀ t methods, r.methods? t "Indexable" = some methods →
        ∀ want ∈ Interface.indexable.methods, Hygienic ρ t methods want) := by
  intro r ρ
  have hi : r.interface? "Indexable" = some Interface.indexable := by decide +kernel
  have hρ : Distinguishes ρ Interface.indexable.vars :=
    ⟨ρ.injective.injOn, fun n _ hne => swap_ne_self hne⟩
  exact ⟨hi, hρ, (reports_survive_renaming_iff r "Indexable" _ ρ hi hρ).1⟩

theorem parse_quoted_vec : Ty.parse "Vec<'T>" = .ok (.unary .vec (.var "T")) := by
  have hchars :
      "Vec<'T>".toList = Unary.vec.name.toList ++ (['<'] ++ (['\'', 'T'] ++ ['>'])) := by
    decide
  have hhalts : Ty.Halts (['<'] ++ (['\'', 'T'] ++ ['>'])) := by
    simp only [Ty.Halts, List.singleton_append, List.head?_cons, Option.mem_some_iff, forall_eq']
    decide +kernel
  have hclose : Ty.Spelled ['>'] [.mark '>'] :=
    Ty.Spelled.next (.mark (by decide)) (by simp) (.done (by simp))
  have hquoted : Ty.Spelled (['\'', 'T'] ++ ['>']) [.variable "T", .mark '>'] := by
    refine Ty.Spelled.next (.quoted (by simp) ?_) (by simp) hclose
    exact List.forall_mem_singleton.mpr (by decide +kernel)
  have hopen := Ty.Spelled.next (.mark (by decide : '<' ∈ Ty.marks)) (by simp) hquoted
  have hspelled := Ty.Spelled.next (Ty.written_of_isName (Ty.isName_unary .vec))
    (fun _ _ => hhalts) hopen
  have hitem : Ty.Derives .list [.variable "T"] [.var "T"] :=
    .filled (.item (.single (.lastPlain (.quoted (by decide)))))
  rw [Ty.parse_eq_ok, ← Ty.denotes_iff_derives_lex]
  exact ⟨_, hchars ▸ hspelled, .single (.lastPlain (.applied hitem (.unary .vec)))⟩

-- The declared result `T` is taken for the `T` of the implementing type, unless it is renamed.
theorem captured_variable_is_reported :
    let r := bare.register "Vec<'T>" "Indexable"
      [⟨"index", [.unary .vec (.var "T"), .int], .str, .none⟩]
    let ρ := Equiv.swap "T" "U"
    Function.Injective ρ ∧ (∀ n, n ≠ Ty.selfName → ρ n ≠ Ty.selfName) ∧
    r.Reported "Vec<'T>" "Indexable" 0 ∧
    ¬ (r.rename "Indexable" ρ).Reported "Vec<'T>" "Indexable" 0 := by
  intro r ρ
  have hself : implementingType "Vec<'T>" = .unary .vec (.var "T") := by
    rw [implementingType, parse_quoted_vec]
  have hi : r.interface? "Indexable" = some Interface.indexable := by decide +kernel
  have hm : r.methods? "Vec<'T>" "Indexable" =
    some [⟨"index", [.unary .vec (.var "T"), .int], .str, .none⟩] := by decide +kernel
  refine ⟨ρ.injective, fun n hne => swap_ne_self hne, ?_, ?_⟩
  · refine (reported_iff hi).mpr ⟨_, hm, _, rfl, ?_⟩
    rintro ⟨got, hgot, -, hconforms⟩
    rw [hself] at hconforms
    cases hgot
    revert hconforms
    decide +kernel
  · rintro hreported
    obtain ⟨methods, hmethods, want, hwant, hnot⟩ := (reported_rename_iff hi).mp hreported
    cases hm.symm.trans hmethods
    cases hwant
    refine hnot ⟨_, rfl, rfl, ?_⟩
    rw [hself]
    decide +kernel

end Registry

end Toolchain
