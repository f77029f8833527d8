import Toolchain.Proofs.Ty.Expressible
import Toolchain.Ty.Encoding
import Toolchain.Ty.Render
import Toolchain.Ty.Subst

namespace Toolchain.Ty

open Text

def Spells (cs : List Char) (tokens : List Token) : Prop :=
  ∀ rest us, Halts rest → Spelled rest us → Spelled (cs ++ rest) (tokens ++ us)

variable {t : Ty} {ts : List Ty} {tokens us : List Token} {n sep : String} {c : Char}
  {cs ds : List Char}

namespace Spells

theorem nil : Spells [] [] := fun _ _ _ hr => hr

theorem name (h : isName n = true) : Spells n.toList [.name n] :=
  fun _ _ hh hr => .next (written_of_isName h) (fun _ _ => hh) hr

theorem mark (hm : c ∈ marks) (h : Spells cs tokens) : Spells (c :: cs) (.mark c :: tokens) := by
  intro rest us hh hr
  change Spelled ([c] ++ (cs ++ rest)) _
  exact .next (.mark hm) (fun _ he => nomatch he) (h rest us hh hr)

theorem arrow (h : Spells cs tokens) : Spells ('-' :: '>' :: cs) (.arrow :: tokens) := by
  intro rest us hh hr
  change Spelled (['-', '>'] ++ (cs ++ rest)) _
  exact .next .arrow (fun _ he => nomatch he) (h rest us hh hr)

theorem blank (hb : isBlank c = true) (h : Spells cs tokens) : Spells (c :: cs) tokens :=
  fun rest us hh hr => (h rest us hh hr).blank hb

theorem append (h : Spells cs tokens) (hc : isNameChar c = false) (h' : Spells (c :: ds) us) :
    Spells (cs ++ c :: ds) (tokens ++ us) := by
  intro rest vs hh hr
  have hhalts : Halts (c :: ds ++ rest) := by
    intro d hd
    obtain rfl := Option.some.inj hd
    exact hc
  rw [List.append_assoc, List.append_assoc]
  exact h _ _ hhalts (h' rest vs hh hr)

theorem append_mark (h : Spells cs tokens) (hm : c ∈ marks) (h' : Spells ds us) :
    Spells (cs ++ c :: ds) (tokens ++ .mark c :: us) :=
  h.append (class_of_mem_marks c hm).2.2.2.1 (h'.mark hm)

theorem bracketed {o e : Char} (ho : o ∈ marks) (he : e ∈ marks) (h : Spells cs tokens) :
    Spells (o :: cs ++ [e]) (.mark o :: tokens ++ [.mark e]) := (h.mark ho).append_mark he nil

theorem applied {o e : Char} (hn : isName n = true) (ho : o ∈ marks) (he : e ∈ marks)
    (h : Spells cs tokens) :
    Spells (n.toList ++ (o :: cs ++ [e])) (.name n :: .mark o :: tokens ++ [.mark e]) :=
  (name hn).append (class_of_mem_marks o ho).2.2.2.1 (h.bracketed ho he)

theorem spelled (h : Spells cs tokens) : Spelled cs tokens := by
  have hs := h [] [] (by simp [Halts]) (.done fun _ h => nomatch h)
  rwa [List.append_nil, List.append_nil] at hs

end Spells

def Joins (sep : String) (c : Char) : Prop := ∀ {cs ds : List Char} {tokens us : List Token},
  Spells cs tokens → Spells ds us → Spells (cs ++ sep.toList ++ ds) (tokens ++ .mark c :: us)

theorem isBlank_space : isBlank ' ' = true := by decide

theorem joins_comma : Joins ", " ',' := by
  intro cs ds tokens us h h'
  have hs := h.append_mark (by decide : ',' ∈ marks) (h'.blank isBlank_space)
  simpa using hs

theorem joins_bar : Joins " | " '|' := by
  intro cs ds tokens us h h'
  have hb := (h'.blank isBlank_space).mark (by decide : '|' ∈ marks)
  have hs := h.append (isNameChar_of_isBlank isBlank_space) (hb.blank isBlank_space)
  simpa using hs

theorem spells_renderAll (hj : Joins sep c) (h : ∀ t ∈ ts, Spells t.render.toList t.spelling) :
    Spells (renderAll sep ts).toList (spellings c ts) := by
  induction ts with
  | nil => exact .nil
  | cons t ts ih =>
      obtain ⟨ht, hts⟩ := List.forall_mem_cons.mp h
      cases ts with
      | nil => exact ht
      | cons u us =>
          have hs := hj ht (ih hts)
          simpa [renderAll, spellings] using hs

theorem isName_con (h : n ∈ primitives) : isName n = true := by
  have hall : primitives.all isName = true := by decide +kernel
  exact List.all_eq_true.mp hall n h

theorem isName_tupleName : isName tupleName = true := by decide +kernel

theorem isName_unary (c : Unary) : isName c.name = true := by
  cases c <;> decide +kernel

theorem isName_binary (c : Binary) : isName c.name = true := by
  cases c <;> decide +kernel

theorem Expressible.spells (h : Expressible t) (hv : t.vars = []) :
    Spells t.render.toList t.spelling := by
  induction h with
  | con hp => exact .name (isName_con hp)
  | var _ _ => exact absurd hv (by simp [vars])
  | @generic n args hn _ _ ih =>
      have hargs : ∀ t ∈ args, t.vars = [] := by
        rwa [vars, varsAll_eq_flatMap, List.flatMap_eq_nil_iff] at hv
      cases args with
      | nil => simpa [render, spelling] using Spells.name hn
      | cons t ts =>
          have hs := spells_renderAll joins_comma fun t ht => ih t ht (hargs t ht)
          have ha := Spells.applied hn (by decide : '<' ∈ marks) (by decide : '>' ∈ marks) hs
          simpa [render, spelling] using ha
  | @product ts _ ih =>
      rw [vars, varsAll_eq_flatMap, List.flatMap_eq_nil_iff] at hv
      have hs := spells_renderAll joins_comma fun t ht => ih t ht (hv t ht)
      have hb := hs.bracketed (by decide : '(' ∈ marks) (by decide : ')' ∈ marks)
      simpa [render, spelling] using hb
  | @sum t u ts _ _ ih =>
      rw [vars, varsAll_eq_flatMap, List.flatMap_eq_nil_iff] at hv
      have hs := spells_renderAll joins_bar fun t ht => ih t ht (hv t ht)
      simpa [render, spelling] using hs
  | @tuple ts _ ih =>
      rw [vars, varsAll_eq_flatMap, List.flatMap_eq_nil_iff] at hv
      have hs := spells_renderAll joins_comma fun t ht => ih t ht (hv t ht)
      have ha := Spells.applied isName_tupleName (by decide : '(' ∈ marks)
        (by decide : ')' ∈ marks) hs
      simpa [render, spelling] using ha
  | @func ps r _ _ ih ih' =>
      rw [vars, varsAll_eq_flatMap, List.append_eq_nil_iff, List.flatMap_eq_nil_iff] at hv
      have hs := spells_renderAll joins_comma fun t ht => ih t ht (hv.1 t ht)
      have hr := (((ih' hv.2).blank isBlank_space).arrow).blank isBlank_space
      have hf := (hs.append_mark (by decide : ')' ∈ marks) hr).mark (by decide : '(' ∈ marks)
      simpa [render, spelling] using hf
  | unary c _ ih =>
      have ha := Spells.applied (isName_unary c) (by decide : '<' ∈ marks)
        (by decide : '>' ∈ marks) (ih hv)
      simpa [render, spelling] using ha
  | binary c _ _ ih ih' =>
      rw [vars, List.append_eq_nil_iff] at hv
      have ha := Spells.applied (isName_binary c) (by decide : '<' ∈ marks)
        (by decide : '>' ∈ marks) (joins_comma (ih hv.1) (ih' hv.2))
      simpa [render, spelling] using ha

theorem Expressible.parse_render (h : Expressible t) (hv : t.vars = []) :
    parse t.render = .ok t := by
  rw [parse_eq_ok, ← denotes_iff_derives_lex]
  exact ⟨t.spelling, (h.spells hv).spelled, h.derives.union_of_phrase⟩

theorem rendering_reads_back {src : String} (hp : parse src = .ok t) (hf : t.freeVars = []) :
    ∃ u, parse t.render = .ok u ∧ beq t u = true ∧ u.hash = t.hash := by
  have h := (expressible_of_parse hp).parse_render (vars_eq_nil_of_freeVars hf)
  exact ⟨t, h, (beq_iff t t).mpr rfl, rfl⟩

theorem rendering_reads_back_arrow : ∃ t, parse "A<> | ( )->int" = .ok t ∧ t.freeVars = [] ∧
    t.render = "A | () -> int" ∧
    ∃ u, parse t.render = .ok u ∧ beq t u = true ∧ u.hash = t.hash := by
  have hA : isName "A" = true := by decide +kernel
  have hfree : "A" ∉ reserved := by decide
  have hint : "int" ∈ primitives := by decide
  have hp : parse "A<> | ( )->int" = .ok (.sum [.generic "A" [], .func [] .int]) := by
    have ha := Spells.applied hA (by decide : '<' ∈ marks) (by decide : '>' ∈ marks) .nil
    have hr := (Spells.name (isName_con hint)).arrow.mark (by decide : ')' ∈ marks)
    have hs := joins_bar ha ((hr.blank isBlank_space).mark (by decide : '(' ∈ marks))
    rw [parse_eq_ok, ← denotes_iff_derives_lex]
    refine ⟨_, hs.spelled, .sum (.alternative ?_ (.lastArrow ?_))⟩
    · exact .applied .empty (applied_generic_iff.mpr hfree)
    · exact .function .empty (.single (.lastPlain (.name (.primitive hint))))
  exact ⟨_, hp, by decide, by decide, rendering_reads_back hp (by decide)⟩

end Toolchain.Ty
