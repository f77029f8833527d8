import Mathlib.Order.Basic
import Toolchain.Settings.Validation

namespace Toolchain

namespace Double

variable {a b x d : Double}

theorem isNaN_of_le (h : a.le b = true) : a.isNaN = false ∧ b.isNaN = false := by
  cases a <;> cases b <;> simp_all [le, isNaN]

theorem le_or_le (ha : a.isNaN = false) (hb : b.isNaN = false) :
    a.le b = true ∨ b.le a = true := by
  cases a with
  | nan => simp [isNaN] at ha
  | infinite s =>
      cases b with
      | nan => simp [isNaN] at hb
      | infinite t => cases s <;> cases t <;> simp [le]
      | finite t n => cases s <;> simp [le]
  | finite s m =>
      cases b with
      | nan => simp [isNaN] at hb
      | infinite t => cases t <;> simp [le]
      | finite t n =>
          simp only [le, decide_eq_true_eq]
          exact Int.le_total _ _

theorem le_iff_of_lt_eq_false (h : b.lt a = false) :
    a.le b = true ↔ a.isNaN = false ∧ b.isNaN = false := by
  refine ⟨isNaN_of_le, ?_⟩
  rintro ⟨ha, hb⟩
  rcases le_or_le ha hb with hab | hba
  · exact hab
  · simpa [lt, hba] using h

theorem isNaN_orDefault (hd : d.isNaN = false) : (x.orDefault d).isNaN = x.isNaN := by
  cases x with
  | nan | infinite _ => rfl
  | finite s m =>
      rw [orDefault]
      split
      next => exact hd
      next => rfl

end Double

structure Tuning.Numeric (t : Tuning) : Prop where
  low : t.low.isNaN = false
  high : t.high.isNaN = false
  grow : t.grow.isNaN = false
  shrink : t.shrink.isNaN = false

instance (t : Tuning) : Decidable t.Numeric :=
  decidable_of_iff (t.low.isNaN = false ∧ t.high.isNaN = false ∧ t.grow.isNaN = false ∧
      t.shrink.isNaN = false)
    ⟨fun h => ⟨h.1, h.2.1, h.2.2.1, h.2.2.2⟩, fun h => ⟨h.low, h.high, h.grow, h.shrink⟩⟩

theorem Policy.numeric_default : Policy.default.tuning.Numeric := by
  decide +kernel

theorem Policy.numeric_withDefaults (p : Policy) :
    p.withDefaults.tuning.Numeric ↔ p.tuning.Numeric := by
  obtain ⟨hl, hh, hg, hs⟩ := numeric_default
  have hlow := Double.isNaN_orDefault (x := p.tuning.low) hl
  have hhigh := Double.isNaN_orDefault (x := p.tuning.high) hh
  have hgrow := Double.isNaN_orDefault (x := p.tuning.grow) hg
  have hshrink := Double.isNaN_orDefault (x := p.tuning.shrink) hs
  constructor
  · rintro ⟨h₁, h₂, h₃, h₄⟩
    exact ⟨hlow ▸ h₁, hhigh ▸ h₂, hgrow ▸ h₃, hshrink ▸ h₄⟩
  · rintro ⟨h₁, h₂, h₃, h₄⟩
    exact ⟨hlow.trans h₁, hhigh.trans h₂, hgrow.trans h₃, hshrink.trans h₄⟩

theorem Policy.threshold_withDefaults_ne (p : Policy) : p.withDefaults.threshold ≠ 0 := by
  rw [withDefaults]
  dsimp only
  split
  next => decide
  next h => exact h

theorem Policy.interval_withDefaults_ne (p : Policy) : p.withDefaults.interval.toInt ≠ 0 := by
  rw [withDefaults]
  dsimp only
  split
  next => decide
  next h => exact h

namespace Settings

variable {s t : Settings} {text : String}

theorem isNaN_one : one.isNaN = false := by decide +kernel

structure WithinBounds (s : Settings) : Prop where
  threshold : 1 ≤ s.gc.threshold.toInt
  interval : 0 < s.gc.interval.toInt
  efficiency : s.gc.tuning.low.le s.gc.tuning.high = true
  grow : one.le s.gc.tuning.grow = true
  shrink : Double.zero.le s.gc.tuning.shrink = true ∧ s.gc.tuning.shrink.le one = true
  cap : 0 ≤ s.analysis.cap
  color : s.color ∈ colors

structure Unrefuted (s : Settings) : Prop where
  threshold : 1 ≤ s.gc.threshold.toInt
  interval : 0 < s.gc.interval.toInt
  efficiency : s.gc.tuning.high.lt s.gc.tuning.low = false
  grow : s.gc.tuning.grow.lt one = false
  shrink : s.gc.tuning.shrink.lt .zero = false ∧ one.lt s.gc.tuning.shrink = false
  cap : 0 ≤ s.analysis.cap
  color : s.color ∈ colors

namespace Unrefuted

theorem le_high_iff (h : Unrefuted s) : s.gc.tuning.low.le s.gc.tuning.high = true ↔
    s.gc.tuning.low.isNaN = false ∧ s.gc.tuning.high.isNaN = false :=
  Double.le_iff_of_lt_eq_false h.efficiency

theorem one_le_grow_iff (h : Unrefuted s) :
    one.le s.gc.tuning.grow = true ↔ s.gc.tuning.grow.isNaN = false := by
  rw [Double.le_iff_of_lt_eq_false h.grow]
  exact and_iff_right isNaN_one

theorem shrink_between_iff (h : Unrefuted s) :
    Double.zero.le s.gc.tuning.shrink = true ∧ s.gc.tuning.shrink.le one = true ↔
      s.gc.tuning.shrink.isNaN = false := by
  rw [Double.le_iff_of_lt_eq_false h.shrink.1, Double.le_iff_of_lt_eq_false h.shrink.2]
  constructor
  · exact fun hs => hs.1.2
  · exact fun hs => ⟨⟨rfl, hs⟩, hs, isNaN_one⟩

theorem withinBounds_iff (h : Unrefuted s) : WithinBounds s ↔ s.gc.tuning.Numeric := by
  constructor
  · intro hw
    obtain ⟨hl, hh⟩ := h.le_high_iff.mp hw.efficiency
    exact ⟨hl, hh, h.one_le_grow_iff.mp hw.grow, h.shrink_between_iff.mp hw.shrink⟩
  · intro hn
    exact ⟨h.threshold, h.interval, h.le_high_iff.mpr ⟨hn.low, hn.high⟩,
      h.one_le_grow_iff.mpr hn.grow, h.shrink_between_iff.mpr hn.shrink, h.cap, h.color⟩

end Unrefuted

theorem check_eq_none_iff {p : Prop} [Decidable p] (e : SettingsError)
    (rest : Option SettingsError) : (if p then some e else rest) = none ↔ ¬ p ∧ rest = none := by
  by_cases hp : p <;> simp [hp]

/-- The checks for negative numbers keep zero out too, since defaults have taken its place. -/
theorem unrefuted_of_scalarFault (h : t.withDefaults.scalarFault = none) :
    Unrefuted t.withDefaults := by
  simp only [scalarFault, check_eq_none_iff, Bool.or_eq_true, not_or, Bool.not_eq_true] at h
  obtain ⟨hthreshold, hinterval, hefficiency, hgrow, ⟨hone, hzero⟩, hcap, hcolor⟩ := h
  have hneThreshold : t.withDefaults.gc.threshold.toInt ≠ 0 := fun hz =>
    t.gc.threshold_withDefaults_ne (Int64.toInt_inj.mp hz)
  have hneInterval : t.withDefaults.gc.interval.toInt ≠ 0 := t.gc.interval_withDefaults_ne
  rw [Int64.lt_iff_toInt_lt, Int64.toInt_zero] at hthreshold
  exact ⟨by omega, by omega, hefficiency, hgrow, ⟨hzero, hone⟩, by omega, by simpa using hcolor⟩

def given? (text : String) : Option Settings := (Yaml.Node.parse? text).bind ofNode?

theorem given?_of_parse (h : parse text = .ok s) :
    ∃ t, given? text = some t ∧ s = t.withDefaults ∧ s.fault? = none := by
  rw [parse] at h
  split at h
  next => cases h
  next n hn =>
      split at h
      next => cases h
      next =>
          split at h
          next => cases h
          next t ht =>
              split at h
              next => cases h
              next hf =>
                  cases h
                  exact ⟨t, by rw [given?, hn, Option.bind_some, ht], rfl, hf⟩

theorem accepted_within_bounds_iff (text : String) (s : Settings) (h : parse text = .ok s) :
    (1 ≤ s.gc.threshold.toInt ∧ 0 < s.gc.interval.toInt ∧ 0 ≤ s.analysis.cap ∧
      s.color ∈ colors) ∧
    (s.gc.tuning.low.le s.gc.tuning.high = true ↔
      s.gc.tuning.low.isNaN = false ∧ s.gc.tuning.high.isNaN = false) ∧
    (one.le s.gc.tuning.grow = true ↔ s.gc.tuning.grow.isNaN = false) ∧
    (Double.zero.le s.gc.tuning.shrink = true ∧ s.gc.tuning.shrink.le one = true ↔
      s.gc.tuning.shrink.isNaN = false) ∧
    (WithinBounds s ↔ ∃ t, given? text = some t ∧ t.gc.tuning.Numeric) := by
  obtain ⟨t, ht, rfl, hf⟩ := given?_of_parse h
  have hu := unrefuted_of_scalarFault (Option.or_eq_none_iff.mp hf).1
  refine ⟨⟨hu.threshold, hu.interval, hu.cap, hu.color⟩, hu.le_high_iff, hu.one_le_grow_iff,
    hu.shrink_between_iff, ?_⟩
  rw [hu.withinBounds_iff, ht]
  simp only [Option.some.injEq, exists_eq_left']
  exact t.gc.numeric_withDefaults

def limits : String :=
  "gc:\n  threshold: 1\n  interval: 1ns\n  low_efficiency: 0.5\n" ++
    "  grow_factor: 1\n  shrink_factor: 1\n"

def limitsGiven : Settings :=
  ⟨⟨1, .ofInt 1, ⟨.ofRatio false 1 2, .zero, one, one⟩⟩, noAnalysis, "", "", []⟩

theorem limits_within_bounds :
    parse limits = .ok limitsGiven.withDefaults ∧ WithinBounds limitsGiven.withDefaults := by
  have heval : parse limits = .ok limitsGiven.withDefaults ∧ given? limits = some limitsGiven ∧
      limitsGiven.gc.tuning.Numeric := by
    decide +kernel
  obtain ⟨hparse, hgiven, hnumeric⟩ := heval
  obtain ⟨_, _, _, _, hbounds⟩ := accepted_within_bounds_iff limits _ hparse
  exact ⟨hparse, hbounds.mpr ⟨limitsGiven, hgiven, hnumeric⟩⟩

def boundless : Settings :=
  { default with gc.tuning.grow := .nan }

theorem nan_passes_every_check :
    parse "gc:\n  grow_factor: .nan\n" = .ok boundless ∧ one.le boundless.gc.tuning.grow = false ∧
      ¬ WithinBounds boundless := by
  have heval : parse "gc:\n  grow_factor: .nan\n" = .ok boundless ∧
      one.le boundless.gc.tuning.grow = false := by
    decide +kernel
  refine ⟨heval.1, heval.2, fun hw => ?_⟩
  exact absurd hw.grow (by simp [heval.2])

end Settings

end Toolchain
