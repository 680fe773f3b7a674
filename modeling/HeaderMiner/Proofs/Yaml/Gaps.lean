import Mathlib.Data.List.Basic
import HeaderMiner.Yaml.Writer
/-!
# What is taken at a cursor

A gap takes all blanks and line breaks up to the next text (`IsSolid`).  Of the breaks, only those
that a scalar keeps as they are come up in what is written here (`IsLineEnd`); blanks are spaces,
which a gap keeps in front of a break and drops behind one.
-/

namespace HeaderMiner.Yaml

variable {r sp bs : List Char} {c : Cursor} {g : Gap} {b : Char} {i l k : Nat}

/-! ## characters -/

/-- a line break that a scalar keeps as it is -/
def IsLineEnd (b : Char) : Prop := b = '\n' ∨ b = '\u2028' ∨ b = '\u2029'

/-- whether a text starts with no gap -/
def IsSolid (r : List Char) : Prop := ∀ c ∈ r.head?, isGap c = false

theorem isSolid_cons {ch : Char} (h : isGap ch = false) : IsSolid (ch :: r) := by
  rintro _ ⟨⟩
  exact h

theorem IsLineEnd.ne (h : IsLineEnd b) : b ≠ '\r' := by
  rcases h with rfl | rfl | rfl <;> decide

theorem IsLineEnd.isBreak (h : IsLineEnd b) : isBreak b = true := by
  rcases h with rfl | rfl | rfl <;> rfl

theorem IsLineEnd.isBlank (h : IsLineEnd b) : isBlank b = false := by
  rcases h with rfl | rfl | rfl <;> rfl

theorem IsLineEnd.normalBreak (h : IsLineEnd b) : normalBreak b = b := by
  rcases h with rfl | rfl | rfl <;> rfl

/-- of the breaks, the printable ones are kept -/
theorem isLineEnd_of_isPrintable (hp : isPrintable b = true) (hb : Yaml.isBreak b = true) :
    IsLineEnd b := by
  simp only [Yaml.isBreak, Bool.or_eq_true, decide_eq_true_eq] at hb
  rcases hb with (((rfl | rfl) | rfl) | rfl) | rfl
  · exact absurd hp (by decide)
  · exact .inl rfl
  · exact absurd hp (by decide)
  · exact .inr (.inl rfl)
  · exact .inr (.inr rfl)

/-- of the blanks, the space is the only printable one -/
theorem isGap_iff (hp : isPrintable b = true) : isGap b = true ↔ b = ' ' ∨ IsLineEnd b := by
  have htab : b ≠ '\t' := by
    rintro rfl
    exact absurd hp (by decide)
  constructor
  · intro hg
    rw [isGap, Bool.or_eq_true] at hg
    rcases hg with hg | hg
    · simp only [Yaml.isBlank, Bool.or_eq_true, decide_eq_true_eq, htab, or_false] at hg
      exact .inl hg
    · exact .inr (isLineEnd_of_isPrintable hp hg)
  · rintro (rfl | hb)
    · rfl
    · rw [isGap, hb.isBreak, Bool.or_true]

theorem isBlank_space : isBlank ' ' = true := rfl

/-- a text up to the first character that fails a test -/
theorem exists_split (p : Char → Bool) (cs : List Char) :
    ∃ xs ys, cs = xs ++ ys ∧ (∀ c ∈ xs, p c = true) ∧ ∀ c ∈ ys.head?, p c = false := by
  refine ⟨cs.takeWhile p, cs.dropWhile p, List.takeWhile_append_dropWhile.symm, fun c hc => ?_,
    fun c hc => ?_⟩
  · exact List.all_eq_true.1 List.all_takeWhile c hc
  · have hd := List.head?_dropWhile_not p cs
    rw [Option.mem_def.1 hc] at hd
    exact hd

theorem exists_split_cons {p : Char → Bool} {m : Char} (hm : p m = true) (cs : List Char) :
    ∃ run rest, m :: cs = run ++ rest ∧ run ≠ [] ∧ (∀ c ∈ run, p c = true) ∧
      ∀ c ∈ rest.head?, p c = false := by
  obtain ⟨run, rest, rfl, hrun, hstop⟩ := exists_split p cs
  exact ⟨m :: run, rest, rfl, nofun, List.forall_mem_cons.2 ⟨hm, hrun⟩, hstop⟩

/-- behind such characters a text goes on where its last one is none of them -/
theorem rest_ne_nil {p : Char → Bool} {xs ys : List Char} (hne : xs ++ ys ≠ [])
    (hxs : ∀ c ∈ xs, p c = true) (hlast : ∀ c ∈ (xs ++ ys).getLast?, p c = false) : ys ≠ [] := by
  rintro rfl
  rw [List.append_nil] at hne hlast
  have hl := hlast _ (List.getLast?_eq_some_getLast hne)
  rw [hxs _ (List.getLast_mem hne)] at hl
  cases hl

/-! ## moving -/

namespace Cursor

theorem moveTo_append (h : c.rest = sp ++ r) :
    c.moveTo r = ⟨r, c.index + sp.length, c.line, c.column + sp.length⟩ := by
  have hl : c.rest.length - r.length = sp.length := by
    rw [h, List.length_append, Nat.add_sub_cancel]
  rw [moveTo, hl]

theorem skip_append (h : c.rest = sp ++ r) (hk : sp.length = k) :
    c.skip k = ⟨r, c.index + k, c.line, c.column + k⟩ := by
  rw [skip, h, List.drop_left' hk, moveTo_append h, hk]

theorem skip_one {ch : Char} (h : c.rest = ch :: r) :
    c.skip 1 = ⟨r, c.index + 1, c.line, c.column + 1⟩ := by
  have hone : c.rest = [ch] ++ r := h
  exact skip_append hone rfl

theorem skipWhile_of_head {p : Char → Bool} (h : ∀ ch ∈ c.rest.head?, p ch = false) :
    c.skipWhile p = c := by
  have hd : c.rest.dropWhile p = c.rest := by
    cases hr : c.rest with
    | nil => rfl
    | cons ch r => rw [List.dropWhile_cons_of_neg (by simp [h ch (by rw [hr]; rfl)])]
  have hnone : c.rest = [] ++ c.rest := rfl
  rw [skipWhile, hd, moveTo_append hnone]
  rfl

theorem skipBreak_of_rest (h : c.rest = b :: r) (hb : IsLineEnd b) :
    c.skipBreak = ⟨r, c.index + 1, c.line + 1, 0⟩ := by
  unfold skipBreak
  rw [h]
  split
  · next heq => exact absurd (List.cons.inj heq).1 hb.ne
  · next heq =>
    obtain ⟨rfl, rfl⟩ := List.cons.inj heq
    rw [if_pos hb.isBreak]
  · next heq => cases heq

theorem atMarker_of_column (h : c.column ≠ 0) : c.atMarker = false := by
  rw [atMarker, beq_eq_false_iff_ne.2 h, Bool.false_and]

end Cursor

/-! ## gaps -/

namespace Gap

theorem takeFrom_solid (h : IsSolid r) : takeFrom g i l k r = (g, ⟨r, i, l, k⟩) := by
  cases r with
  | nil => rfl
  | cons ch r =>
    have hg := h ch rfl
    rw [isGap, Bool.or_eq_false_iff] at hg
    have hr : ch ≠ '\r' := by
      rintro rfl
      exact absurd hg.2 (by decide)
    rw [takeFrom, hg.1, hg.2]
    · rfl
    · intro _ he
      exact absurd he hr

theorem takeFrom_spaces (hg : g.breaks = []) (hs : ∀ ch ∈ sp, ch = ' ') :
    takeFrom g i l k (sp ++ r) =
      takeFrom { g with blanks := g.blanks ++ sp } (i + sp.length) l (k + sp.length) r := by
  induction sp generalizing g i k with
  | nil =>
    rw [List.append_nil]
    rfl
  | cons ch sp ih =>
    rw [List.forall_mem_cons] at hs
    obtain ⟨rfl, hs⟩ := hs
    have ha : g.addBlank k ' ' = { g with blanks := g.blanks ++ [' '] } := by
      rw [addBlank, hg]
      rfl
    rw [List.cons_append, takeFrom, if_pos isBlank_space, ha,
      ih (g := { g with blanks := g.blanks ++ [' '] }) hg hs, List.length_cons]
    · simp only [List.append_assoc, List.singleton_append, Nat.add_assoc, Nat.add_comm 1]
    · nofun

/-- behind a break, spaces are dropped -/
theorem takeFrom_indent (hg : g.breaks ≠ []) (hs : ∀ ch ∈ sp, ch = ' ') :
    takeFrom g i l k (sp ++ r) = takeFrom g (i + sp.length) l (k + sp.length) r := by
  induction sp generalizing i k with
  | nil => rfl
  | cons ch sp ih =>
    rw [List.forall_mem_cons] at hs
    obtain ⟨rfl, hs⟩ := hs
    have ha : g.addBlank k ' ' = g := by
      rw [addBlank, if_neg (by simpa using hg), if_neg (by decide)]
    rw [List.cons_append, takeFrom, if_pos isBlank_space, ha, ih hs, List.length_cons]
    · simp only [Nat.add_assoc, Nat.add_comm 1]
    · nofun

theorem takeFrom_breaks (hb : ∀ b ∈ bs, IsLineEnd b) :
    takeFrom g i l k (bs ++ r) = takeFrom { g with breaks := g.breaks ++ bs } (i + bs.length)
      (l + bs.length) (if bs = [] then k else 0) r := by
  induction bs generalizing g i l k with
  | nil =>
    rw [List.append_nil]
    rfl
  | cons b bs ih =>
    rw [List.forall_mem_cons] at hb
    obtain ⟨hb, hbs⟩ := hb
    have ha : g.addBreak b = { g with breaks := g.breaks ++ [b] } := by
      rw [addBreak, hb.normalBreak]
    rw [List.cons_append, takeFrom, hb.isBlank, hb.isBreak, ha]
    · show takeFrom { g with breaks := g.breaks ++ [b] } (i + 1) (l + 1) 0 (bs ++ r) = _
      rw [ih hbs, ite_self, List.length_cons, if_neg (List.cons_ne_nil b bs)]
      simp only [List.append_assoc, List.singleton_append, Nat.add_assoc, Nat.add_comm 1]
    · intro _ he
      exact absurd he hb.ne

theorem take_spaces (hs : ∀ ch ∈ sp, ch = ' ') (hr : IsSolid r) (hc : c.rest = sp ++ r) :
    ∃ d : Cursor, take c = ({ blanks := sp }, d) ∧ d.rest = r ∧ d.column = c.column + sp.length := by
  rw [take, hc, takeFrom_spaces rfl hs, takeFrom_solid hr]
  exact ⟨_, rfl, rfl, rfl⟩

theorem take_breaks (hb : ∀ b ∈ bs, IsLineEnd b) (hne : bs ≠ []) (hs : ∀ ch ∈ sp, ch = ' ')
    (hr : IsSolid r) (hc : c.rest = bs ++ (sp ++ r)) :
    ∃ d : Cursor, take c = ({ breaks := bs }, d) ∧ d.rest = r ∧ d.column = sp.length := by
  have hg : ({ breaks := [] ++ bs } : Gap).breaks ≠ [] := hne
  rw [take, hc, takeFrom_breaks hb, takeFrom_indent hg hs, takeFrom_solid hr, if_neg hne]
  exact ⟨_, rfl, rfl, Nat.zero_add _⟩

end Gap

end HeaderMiner.Yaml
