import HeaderMiner.Proofs.Text.Digits
import HeaderMiner.Proofs.Yaml.Gaps
/-!
# Quoted texts read back

In quotes of either kind a text is a sequence of pieces with gaps between them.  In single quotes a gap
is a run of spaces or one of breaks, as a text in which the two meet is not written that way, and the
indentation behind a break is dropped again (`quoted_single`).  In double quotes every break is
escaped, so all gaps are spaces (`quoted_double`).
-/

namespace HeaderMiner.Yaml

variable {cs xs ys w tail done : List Char} {c : Cursor} {fuel : Nat} {double : Bool}

/-! ## pairs -/

theorem hasPair_append {p q : Char → Bool} (h : hasPair p q (xs ++ ys) = false) :
    hasPair p q ys = false := by
  induction xs with
  | nil => exact h
  | cons x xs ih =>
    apply ih
    cases xs with
    | nil =>
      cases ys with
      | nil => rfl
      | cons y ys =>
        simp only [List.singleton_append, hasPair, Bool.or_eq_false_iff] at h
        exact h.2
    | cons x' xs =>
      simp only [List.cons_append, hasPair, Bool.or_eq_false_iff] at h
      exact h.2

/-- what passes one test is not followed by what passes the other -/
theorem hasPair_next {p q : Char → Bool} {b : Char} (h : hasPair p q (xs ++ b :: ys) = false)
    (hne : xs ≠ []) (hp : ∀ a ∈ xs, p a = true) : q b = false := by
  obtain ⟨xs, a, rfl⟩ := List.eq_nil_or_concat xs |>.resolve_left hne
  rw [List.concat_eq_append, List.append_assoc] at h
  have hab := hasPair_append h
  have ha := hp a (by simp)
  simpa [hasPair, ha] using (Bool.or_eq_false_iff.1 hab).1

/-! ## pieces -/

/-- takes a piece in quotes of one of the kinds -/
def quotedPiece (double : Bool) (cs : List Char) : Option (List Char × Scalar.PieceEnd × List Char) :=
  if double then Scalar.doublePiece cs else Scalar.singlePiece cs

theorem quotedFrom_succ (hcol : c.column ≠ 0) (hne : c.rest ≠ []) :
    Scalar.quotedFrom double (fuel + 1) done c = (quotedPiece double c.rest).bind fun p =>
      match p.2.1 with
      | .quote => some (done ++ p.1, c.moveTo p.2.2)
      | .gap =>
        let (gap, d) := Gap.take (c.moveTo p.2.2)
        Scalar.quotedFrom double fuel (done ++ p.1 ++ gap.folded) d
      | .escapedBreak =>
        let (gap, d) := Gap.take (c.moveTo p.2.2).skipBreak
        Scalar.quotedFrom double fuel (done ++ p.1 ++ gap.breaks) d := by
  have hempty : c.rest.isEmpty = false := by simpa using hne
  rw [Scalar.quotedFrom, Cursor.atMarker_of_column hcol, hempty, Bool.or_false, if_neg (by decide)]
  cases double <;> rfl

theorem quotedFrom_quote (hcol : c.column ≠ 0) (hne : c.rest ≠ [])
    (hp : quotedPiece double c.rest = some (cs, .quote, tail)) :
    Scalar.quotedFrom double (fuel + 1) done c = some (done ++ cs, c.moveTo tail) := by
  rw [quotedFrom_succ hcol hne, hp]
  rfl

theorem quotedFrom_gap {gap : Gap} {d : Cursor} (hcol : c.column ≠ 0) (hne : c.rest ≠ [])
    (hp : quotedPiece double c.rest = some (cs, .gap, w)) (ht : Gap.take (c.moveTo w) = (gap, d)) :
    Scalar.quotedFrom double (fuel + 1) done c =
      Scalar.quotedFrom double fuel (done ++ cs ++ gap.folded) d := by
  rw [quotedFrom_succ hcol hne, hp, Option.bind_some]
  dsimp only
  rw [ht]

/-- how a text is written in quotes of a kind, with the closing quote and what is behind it: `piece`
leaves characters as they are or escapes them one by one, and a `run` is what a gap folds to -/
structure IsQuoting (double : Bool) (tail : List Char) (gap : Char → Bool)
    (written : List Char → List Char) (good : List Char → Prop) : Prop where
  suffix : ∀ xs ys, good (xs ++ ys) → good ys
  close : quotedPiece double (written []) = some ([], .quote, tail)
  piece : ∀ xs ys, (∀ c ∈ xs, gap c = false) → quotedPiece double (written (xs ++ ys)) =
    (quotedPiece double (written ys)).map fun p => (xs ++ p.1, p.2)
  run : ∀ m cs, good (m :: cs) → gap m = true → ∃ xs ys, m :: cs = xs ++ ys ∧ xs ≠ [] ∧
    quotedPiece double (written (m :: cs)) = some ([], .gap, written (m :: cs)) ∧
    ∀ c : Cursor, c.rest = written (m :: cs) → c.column ≠ 0 →
      ∃ g d, Gap.take c = (g, d) ∧ g.folded = xs ∧ d.rest = written ys ∧ d.column ≠ 0

theorem IsQuoting.quotedFrom {gap : Char → Bool} {written : List Char → List Char}
    {good : List Char → Prop} (hq : IsQuoting double tail gap written good) (h : good cs)
    (hempty : ∀ cs, written cs ≠ []) (hrest : c.rest = written cs) (hcol : c.column ≠ 0)
    (hfuel : cs.length < fuel) :
    ∃ d : Cursor, Scalar.quotedFrom double fuel done c = some (done ++ cs, d) ∧ d.rest = tail := by
  induction fuel generalizing cs done c with
  | zero => cases hfuel
  | succ fuel ih =>
    obtain ⟨piece, more, rfl, hpiece, hmore⟩ := exists_split (fun c => !gap c) cs
    simp only [Bool.not_eq_true', Bool.not_eq_false'] at hpiece hmore
    have hne : c.rest ≠ [] := by
      rw [hrest]
      exact hempty _
    have hread := hq.piece piece more hpiece
    rw [← hrest] at hread
    cases more with
    | nil =>
      have hp : quotedPiece double c.rest = some (piece, .quote, tail) := by
        rw [hread, hq.close]
        simp
      rw [quotedFrom_quote hcol hne hp, List.append_nil]
      exact ⟨_, rfl, rfl⟩
    | cons m q =>
      have hgood := hq.suffix _ _ h
      obtain ⟨run, rest, heq, hrunne, hgap, htake⟩ := hq.run m q hgood (hmore m rfl)
      have hp : quotedPiece double c.rest = some (piece, .gap, written (m :: q)) := by
        rw [hread, hgap]
        simp
      obtain ⟨g, d, hg, hfold, hd, hdcol⟩ := htake (c.moveTo (written (m :: q))) rfl
        (Nat.ne_of_gt (Nat.lt_of_lt_of_le (Nat.pos_of_ne_zero hcol) (Nat.le_add_right ..)))
      rw [heq] at hgood hfuel ⊢
      have hlen : rest.length < fuel := by
        have hpos := List.length_pos_iff.2 hrunne
        simp only [List.length_append] at hfuel
        omega
      obtain ⟨e, he, herest⟩ : ∃ e : Cursor, Scalar.quotedFrom double fuel (done ++ piece ++ run) d =
          some (done ++ piece ++ run ++ rest, e) ∧ e.rest = tail :=
        ih (hq.suffix _ _ hgood) hd hdcol hlen
      refine ⟨e, ?_, herest⟩
      rw [quotedFrom_gap hcol hne hp hg, hfold, he]
      simp only [List.append_assoc]

/-! ## single quotes -/

def singled (c : Char) : List Char := if c = '\'' then ['\'', '\''] else [c]

theorem singleFrom_piece (hs : ∀ c ∈ xs, isBreak c = false) :
    singleFrom false (xs ++ ys) = xs.flatMap singled ++ singleFrom false ys := by
  induction xs with
  | nil => rfl
  | cons x xs ih =>
    rw [List.forall_mem_cons] at hs
    rw [List.cons_append, singleFrom, if_neg (by simp [hs.1]), ih hs.2]
    simp [singled]

theorem singleFrom_breaks (hs : ∀ c ∈ xs, isBreak c = true) (hne : xs ≠ []) (broken : Bool) :
    singleFrom broken (xs ++ ys) = xs ++ singleFrom true ys := by
  induction xs generalizing broken with
  | nil => exact absurd rfl hne
  | cons x xs ih =>
    rw [List.forall_mem_cons] at hs
    rw [List.cons_append, singleFrom, if_pos hs.1]
    cases xs with
    | nil => rfl
    | cons x' xs =>
      rw [ih hs.2 nofun]
      rfl

theorem singleFrom_true (hs : ∀ c ∈ ys.head?, isBreak c = false) :
    singleFrom true ys = [' ', ' '] ++ singleFrom false ys := by
  cases ys with
  | nil => rfl
  | cons y ys =>
    have hy : ¬isBreak y = true := by simp [hs y rfl]
    simp [singleFrom, hy]

theorem forall_mem_singleFrom {p : Char → Prop} (hs : p ' ') (hq : p '\'') (h : ∀ c ∈ cs, p c)
    (broken : Bool) : ∀ c ∈ singleFrom broken cs, p c := by
  have hspaces (b : Bool) : ∀ c ∈ (if b = true then [' ', ' '] else []), p c := by
    split <;> simp [hs]
  induction cs generalizing broken with
  | nil => exact hspaces broken
  | cons x xs ih =>
    rw [List.forall_mem_cons] at h
    rw [singleFrom]
    split
    · exact List.forall_mem_cons.2 ⟨h.1, ih h.2 true⟩
    · refine List.forall_mem_append.2 ⟨List.forall_mem_append.2 ⟨hspaces broken, ?_⟩, ih h.2 false⟩
      split <;> simp [hq, h.1]

theorem length_singleFrom (cs : List Char) : cs.length ≤ (singleFrom false cs).length := by
  suffices ∀ broken, cs.length ≤ (singleFrom broken cs).length from this false
  induction cs with
  | nil => exact fun _ => Nat.zero_le _
  | cons c cs ih =>
    intro broken
    rw [singleFrom]
    split
    · exact Nat.succ_le_succ (ih true)
    · have hc : 1 ≤ (if c = '\'' then ['\'', '\''] else [c]).length := by split <;> simp
      have hcs := ih false
      simp only [List.length_append, List.length_cons]
      omega

theorem singlePiece_append (hs : ∀ c ∈ xs, isGap c = false) :
    Scalar.singlePiece (xs.flatMap singled ++ w) =
      (Scalar.singlePiece w).map fun p => (xs ++ p.1, p.2) := by
  induction xs with
  | nil =>
    show Scalar.singlePiece w = _
    cases Scalar.singlePiece w <;> rfl
  | cons x xs ih =>
    rw [List.forall_mem_cons] at hs
    have hmap : ((Scalar.singlePiece w).map fun p => (xs ++ p.1, p.2)).map
        (fun p => (x :: p.1, p.2)) = (Scalar.singlePiece w).map fun p => (x :: xs ++ p.1, p.2) := by
      rw [Option.map_map]
      rfl
    rw [List.flatMap_cons, List.append_assoc, ← hmap, ← ih hs.2]
    by_cases hx : x = '\''
    · rw [hx, singled, if_pos rfl, List.cons_append, List.cons_append, List.nil_append,
        Scalar.singlePiece]
    · rw [singled, if_neg hx, List.singleton_append, Scalar.singlePiece, if_neg (by simp [hs.1])]
      · exact fun _ he _ => hx he
      · exact hx

theorem singlePiece_quote (ht : tail.head? ≠ some '\'') :
    Scalar.singlePiece ('\'' :: tail) = some ([], .quote, tail) := by
  rw [Scalar.singlePiece]
  rintro r rfl
  exact ht rfl

theorem singlePiece_gap {g : Char} (hg : isGap g = true) :
    Scalar.singlePiece (g :: w) = some ([], .gap, g :: w) := by
  have hq : g ≠ '\'' := by
    rintro rfl
    exact absurd hg (by decide)
  rw [Scalar.singlePiece, if_pos hg]
  · exact fun _ he _ => hq he
  · exact hq

theorem flatMap_singled_spaces (hs : ∀ c ∈ xs, c = ' ') : xs.flatMap singled = xs := by
  induction xs with
  | nil => rfl
  | cons x xs ih =>
    rw [List.forall_mem_cons] at hs
    obtain ⟨rfl, hs⟩ := hs
    rw [List.flatMap_cons, ih hs]
    rfl

/-- what makes a text one that is written in single quotes -/
structure IsSingle (cs : List Char) : Prop where
  printable : ∀ c ∈ cs, isPrintable c = true
  oneLine : ∀ c ∈ cs, c ≠ '\n'
  noSpaceBreak : hasPair (· = ' ') isBreak cs = false
  noBreakSpace : hasPair isBreak (· = ' ') cs = false

theorem isSingle_of_admitsSingle (h : admitsSingle cs = true) (hn : cs.contains '\n' = false) :
    IsSingle cs := by
  simp only [admitsSingle, needsEscapes, Bool.not_eq_true', Bool.or_eq_false_iff,
    List.any_eq_false] at h
  obtain ⟨⟨hp, hsb⟩, hbs⟩ := h
  refine ⟨fun c hc => by simpa using hp c hc, ?_, hsb, hbs⟩
  rintro c hc rfl
  rw [List.contains_iff_mem.2 hc] at hn
  cases hn

theorem IsSingle.of_append (h : IsSingle (xs ++ ys)) : IsSingle ys where
  printable c hc := h.printable c (List.mem_append_right xs hc)
  oneLine c hc := h.oneLine c (List.mem_append_right xs hc)
  noSpaceBreak := hasPair_append h.noSpaceBreak
  noBreakSpace := hasPair_append h.noBreakSpace

/-- separators are kept when a gap is folded -/
theorem folded_separators {bs : List Char} (hb : ∀ b ∈ bs, b ≠ '\n') (hne : bs ≠ []) :
    ({ breaks := bs } : Gap).folded = bs := by
  obtain ⟨b, bs, rfl⟩ := List.exists_cons_of_ne_nil hne
  have hbn := hb b List.mem_cons_self
  unfold Gap.folded
  dsimp only
  split
  · next he => cases he
  · next he => exact absurd (List.cons.inj he).1 hbn
  · next he => exact absurd (List.cons.inj he).1 hbn
  · rfl

theorem isSolid_singleFrom (h : ∀ c ∈ cs.head?, isGap c = false) (tail : List Char) :
    IsSolid (singleFrom false cs ++ '\'' :: tail) := by
  cases cs with
  | nil => exact isSolid_cons rfl
  | cons c cs =>
    have hc := h c rfl
    have hb : ¬isBreak c = true := by
      intro hb
      rw [isGap, hb, Bool.or_true] at hc
      cases hc
    rw [singleFrom, if_neg hb]
    by_cases hq : c = '\''
    · rw [if_pos hq]
      exact isSolid_cons rfl
    · rw [if_neg hq]
      exact isSolid_cons hc

/-- the gap at the front of a text is a run of spaces or one of breaks -/
theorem IsSingle.exists_run {m : Char} (h : IsSingle (m :: cs)) (hm : isGap m = true) :
    ∃ run rest, m :: cs = run ++ rest ∧ run ≠ [] ∧ (∀ c ∈ rest.head?, isGap c = false) ∧
      ((∀ c ∈ run, c = ' ') ∨ ∀ c ∈ run, isBreak c = true) := by
  have hnot {c : Char} {run rest : List Char} (heq : m :: cs = run ++ c :: rest) (hs : c ≠ ' ')
      (hb : isBreak c = false) : isGap c = false := by
    have hp := h.printable c (by simp [heq])
    refine Bool.eq_false_iff.2 fun hg => ?_
    rcases (isGap_iff hp).1 hg with hc | hl
    · exact hs hc
    · rw [hl.isBreak] at hb
      cases hb
  rcases (isGap_iff (h.printable m List.mem_cons_self)).1 hm with rfl | hl
  · obtain ⟨run, rest, heq, hne, hrun, hstop⟩ := exists_split_cons (p := (· = ' ')) (m := ' ') rfl cs
    refine ⟨run, rest, heq, hne, ?_, .inl fun c hc => of_decide_eq_true (hrun c hc)⟩
    intro c hc
    obtain ⟨r, rfl⟩ := List.head?_eq_some_iff.1 (Option.mem_def.1 hc)
    have hpair := h.noSpaceBreak
    rw [heq] at hpair
    exact hnot heq (of_decide_eq_false (hstop c rfl)) (hasPair_next hpair hne hrun)
  · obtain ⟨run, rest, heq, hne, hrun, hstop⟩ := exists_split_cons hl.isBreak cs
    refine ⟨run, rest, heq, hne, ?_, .inr hrun⟩
    intro c hc
    obtain ⟨r, rfl⟩ := List.head?_eq_some_iff.1 (Option.mem_def.1 hc)
    have hpair := h.noBreakSpace
    rw [heq] at hpair
    exact hnot heq (of_decide_eq_false (hasPair_next hpair hne hrun)) (hstop c rfl)

/-- a gap in single quotes is folded to the run that it was written for -/
theorem take_run {run rest : List Char} (h : IsSingle (run ++ rest)) (hne : run ≠ [])
    (hrest : ∀ c ∈ rest.head?, isGap c = false)
    (hrun : (∀ c ∈ run, c = ' ') ∨ ∀ c ∈ run, isBreak c = true)
    (hc : c.rest = singleFrom false (run ++ rest) ++ '\'' :: tail) (hcol : c.column ≠ 0) :
    ∃ gap d, Gap.take c = (gap, d) ∧ gap.folded = run ∧
      d.rest = singleFrom false rest ++ '\'' :: tail ∧ d.column ≠ 0 := by
  have hsolid := isSolid_singleFrom hrest tail
  rcases hrun with hs | hb
  · have hwrite : singleFrom false (run ++ rest) = run ++ singleFrom false rest := by
      rw [singleFrom_piece fun c hc => by rw [hs c hc]; rfl, flatMap_singled_spaces hs]
    rw [hwrite, List.append_assoc] at hc
    obtain ⟨d, ht, hd, hdcol⟩ := Gap.take_spaces hs hsolid hc
    exact ⟨_, d, ht, rfl, hd, by omega⟩
  · have hbreak : ∀ c ∈ rest.head?, isBreak c = false := fun c hc =>
      (Bool.or_eq_false_iff.1 (hrest c hc)).2
    have hlines : ∀ b ∈ run, IsLineEnd b := fun b hr =>
      isLineEnd_of_isPrintable (h.printable b (List.mem_append_left _ hr)) (hb b hr)
    rw [singleFrom_breaks hb hne, singleFrom_true hbreak, List.append_assoc, List.append_assoc] at hc
    obtain ⟨d, ht, hd, hdcol⟩ := Gap.take_breaks hlines hne (by simp) hsolid hc
    have hfold := folded_separators (fun b hr => h.oneLine b (List.mem_append_left _ hr)) hne
    exact ⟨_, d, ht, hfold, hd, by simp [hdcol]⟩

theorem isQuoting_single (ht : tail.head? ≠ some '\'') :
    IsQuoting false tail isGap (fun cs => singleFrom false cs ++ '\'' :: tail) IsSingle where
  suffix _ _ h := h.of_append
  close := singlePiece_quote ht
  piece xs ys hs := by
    have hunbroken : ∀ c ∈ xs, isBreak c = false := fun c hc => (Bool.or_eq_false_iff.1 (hs c hc)).2
    rw [singleFrom_piece hunbroken, List.append_assoc]
    exact singlePiece_append hs
  run m cs h hm := by
    obtain ⟨run, rest, heq, hne, hrest, hrun⟩ := h.exists_run hm
    refine ⟨run, rest, heq, hne, ?_, fun c hc hcol => ?_⟩
    · obtain ⟨w, hw⟩ : ∃ w, singleFrom false (m :: cs) ++ '\'' :: tail = m :: w := by
        by_cases hb : isBreak m = true
        · rw [singleFrom, if_pos hb]
          exact ⟨_, rfl⟩
        · have hq : m ≠ '\'' := by
            rintro rfl
            exact absurd hm (by decide)
          rw [singleFrom, if_neg hb, if_neg hq]
          exact ⟨_, rfl⟩
      rw [hw]
      exact singlePiece_gap hm
    · rw [heq] at h hc
      exact take_run h hne hrest hrun hc hcol

theorem quoted_single (h : IsSingle cs) (ht : tail.head? ≠ some '\'')
    (hrest : c.rest = singleFrom false cs ++ '\'' :: tail) (hcol : c.column ≠ 0) :
    ∃ d : Cursor, Scalar.quoted false c = some (cs, d) ∧ d.rest = tail := by
  have hlen := length_singleFrom cs
  refine (isQuoting_single ht).quotedFrom h (by simp) hrest hcol ?_
  rw [hrest, List.length_append, List.length_cons]
  omega

/-! ## double quotes -/

theorem length_hexText {k n : Nat} (hk : 0 < k) (hn : n < 16 ^ k) : (hexText k n).length = k := by
  have hl : (Nat.toDigits 16 n).length ≤ k := (Nat.length_toDigits_le_iff (by decide) hk).2 hn
  rw [hexText, List.length_append, List.length_replicate, List.length_map]
  omega

theorem codePoint?_hexText (k : Nat) (c : Char) :
    Scalar.codePoint? (hexText k c.toNat) = some c := by
  have hd : ∀ d < 16, Text.hexValue? (Nat.digitChar d).toUpper = some d := by decide
  have hn : Text.digits? 16 (hexText k c.toNat) = some c.toNat := by
    rw [hexText, Text.digits?_zeros (by decide), Text.digits?_toDigits (by decide) hd]
  have hv : c.toNat.isValidChar := c.valid
  rw [Scalar.codePoint?, hn]
  show (if c.toNat.isValidChar then some (Char.ofNat c.toNat) else none) = some c
  rw [if_pos hv, Char.ofNat_toNat]

/-- takes a character and goes on -/
def andThen (c : Char) (r : Option (List Char × Scalar.PieceEnd × List Char)) :
    Option (List Char × Scalar.PieceEnd × List Char) := r.map fun p => (c :: p.1, p.2)

theorem doublePiece_raw {c : Char} (hq : c ≠ '"') (hb : c ≠ '\\') (hg : isGap c = false) :
    Scalar.doublePiece (c :: w) = andThen c (Scalar.doublePiece w) := by
  rw [Scalar.doublePiece, if_neg (by simp [hg]), if_neg hb]
  · rfl
  · exact hq
  · exact fun _ _ _ he => absurd he hb
  · exact fun _ _ _ _ _ he => absurd he hb
  · exact fun _ _ _ _ _ _ _ _ _ he => absurd he hb
  · exact fun _ _ he => absurd he hb

theorem doublePiece_letter {c l : Char} (hx : l ≠ 'x' ∧ l ≠ 'u' ∧ l ≠ 'U') (hb : isBreak l = false)
    (he : Scalar.escape? l = some c) :
    Scalar.doublePiece ('\\' :: l :: w) = andThen c (Scalar.doublePiece w) := by
  rw [Scalar.doublePiece, if_neg (by simp [hb]), he]
  · rfl
  · exact fun _ _ _ h _ => absurd h hx.1
  · exact fun _ _ _ _ _ h _ => absurd h hx.2.1
  · exact fun _ _ _ _ _ _ _ _ _ h _ => absurd h hx.2.2

theorem escape?_of_letter {c l : Char} (h : escapeLetter? c = some l) :
    (l ≠ 'x' ∧ l ≠ 'u' ∧ l ≠ 'U') ∧ isBreak l = false ∧ Scalar.escape? l = some c := by
  have hc : c = Char.ofNat c.toNat := c.ofNat_toNat.symm
  unfold escapeLetter? at h
  split at h
  case h_16 => cases h
  all_goals
    next hn =>
      obtain rfl := Option.some.inj h
      rw [hc, hn]
      decide

theorem doublePiece_number {c x : Char} {ds : List Char}
    (hx : (x, ds.length) = ('x', 2) ∨ (x, ds.length) = ('u', 4) ∨ (x, ds.length) = ('U', 8))
    (hc : Scalar.codePoint? ds = some c) :
    Scalar.doublePiece ('\\' :: x :: (ds ++ w)) = andThen c (Scalar.doublePiece w) := by
  rcases hx with hx | hx | hx <;> obtain ⟨rfl, hl⟩ := Prod.mk.inj hx
  · match ds, hl with
    | [a, b], _ =>
      show Scalar.doublePiece ('\\' :: 'x' :: a :: b :: w) = _
      rw [Scalar.doublePiece, hc]
      rfl
  · match ds, hl with
    | [a, b, c, d], _ =>
      show Scalar.doublePiece ('\\' :: 'u' :: a :: b :: c :: d :: w) = _
      rw [Scalar.doublePiece, hc]
      rfl
  · match ds, hl with
    | [a, b, c, d, e, f, g, h], _ =>
      show Scalar.doublePiece ('\\' :: 'U' :: a :: b :: c :: d :: e :: f :: g :: h :: w) = _
      rw [Scalar.doublePiece, hc]
      rfl

theorem doublePiece_escaped {c : Char} (hc : c ≠ ' ') :
    Scalar.doublePiece (escaped c ++ w) = andThen c (Scalar.doublePiece w) := by
  rw [escaped]
  split
  · next h =>
    simp only [Bool.and_eq_true, Bool.not_eq_true', bne_iff_ne, ne_eq] at h
    obtain ⟨⟨⟨hp, hb⟩, hq⟩, hs⟩ := h
    apply doublePiece_raw hq hs
    refine Bool.eq_false_iff.2 fun hg => ?_
    rcases (isGap_iff hp).1 hg with hc' | hl
    · exact hc hc'
    · rw [hl.isBreak] at hb
      cases hb
  · split
    · next l hl =>
      obtain ⟨hx, hb, he⟩ := escape?_of_letter hl
      exact doublePiece_letter hx hb he
    · have hmax : c.toNat < 16 ^ 8 := by
        have hv : c.toNat.isValidChar := c.valid
        unfold Nat.isValidChar at hv
        omega
      dsimp only
      split
      · next h2 =>
        have hl : (hexText 2 c.toNat).length = 2 := length_hexText (by decide) (by omega)
        exact doublePiece_number (.inl (by rw [hl])) (codePoint?_hexText 2 c)
      · split
        · next h4 =>
          have hl : (hexText 4 c.toNat).length = 4 := length_hexText (by decide) (by omega)
          exact doublePiece_number (.inr (.inl (by rw [hl]))) (codePoint?_hexText 4 c)
        · have hl : (hexText 8 c.toNat).length = 8 := length_hexText (by decide) hmax
          exact doublePiece_number (.inr (.inr (by rw [hl]))) (codePoint?_hexText 8 c)

theorem doublePiece_append (hs : ∀ c ∈ xs, c ≠ ' ') :
    Scalar.doublePiece (xs.flatMap escaped ++ w) =
      (Scalar.doublePiece w).map fun p => (xs ++ p.1, p.2) := by
  induction xs with
  | nil =>
    show Scalar.doublePiece w = _
    cases Scalar.doublePiece w <;> rfl
  | cons x xs ih =>
    rw [List.forall_mem_cons] at hs
    rw [List.flatMap_cons, List.append_assoc, doublePiece_escaped hs.1, ih hs.2, andThen,
      Option.map_map]
    rfl

theorem doublePiece_space : Scalar.doublePiece (' ' :: w) = some ([], .gap, ' ' :: w) := by
  rw [Scalar.doublePiece, if_pos (by decide)] <;> simp

theorem flatMap_escaped_spaces (hs : ∀ c ∈ xs, c = ' ') : xs.flatMap escaped = xs := by
  induction xs with
  | nil => rfl
  | cons x xs ih =>
    rw [List.forall_mem_cons] at hs
    obtain ⟨rfl, hs⟩ := hs
    rw [List.flatMap_cons, ih hs]
    rfl

theorem isSolid_escaped (h : ∀ c ∈ cs.head?, c ≠ ' ') (tail : List Char) :
    IsSolid (cs.flatMap escaped ++ '"' :: tail) := by
  cases cs with
  | nil => exact isSolid_cons rfl
  | cons c cs =>
    have hc := h c rfl
    rw [List.flatMap_cons, escaped]
    split
    · next hraw =>
      simp only [Bool.and_eq_true, Bool.not_eq_true', bne_iff_ne, ne_eq] at hraw
      obtain ⟨⟨⟨hp, hb⟩, -⟩, -⟩ := hraw
      refine isSolid_cons (Bool.eq_false_iff.2 fun hg => ?_)
      rcases (isGap_iff hp).1 hg with hc' | hl
      · exact hc hc'
      · rw [hl.isBreak] at hb
        cases hb
    · split
      · exact isSolid_cons rfl
      · dsimp only
        split
        · exact isSolid_cons rfl
        · split <;> exact isSolid_cons rfl

theorem isQuoting_double :
    IsQuoting true tail (· = ' ') (fun cs => cs.flatMap escaped ++ '"' :: tail) fun _ => True where
  suffix _ _ _ := trivial
  close := by
    show Scalar.doublePiece ('"' :: tail) = _
    rw [Scalar.doublePiece]
  piece xs ys hs := by
    rw [List.flatMap_append, List.append_assoc]
    exact doublePiece_append fun c hc => of_decide_eq_false (hs c hc)
  run m cs _ hm := by
    obtain rfl := of_decide_eq_true hm
    obtain ⟨run, rest, heq, hne, hrun, hstop⟩ := exists_split_cons (p := (· = ' ')) hm cs
    have hspaces : ∀ c ∈ run, c = ' ' := fun c hc => of_decide_eq_true (hrun c hc)
    refine ⟨run, rest, heq, hne, doublePiece_space, fun c hc hcol => ?_⟩
    rw [heq, List.flatMap_append, flatMap_escaped_spaces hspaces, List.append_assoc] at hc
    have hsolid := isSolid_escaped (fun c hc => of_decide_eq_false (hstop c hc)) tail
    obtain ⟨d, ht, hd, hdcol⟩ := Gap.take_spaces hspaces hsolid hc
    exact ⟨_, d, ht, rfl, hd, by omega⟩

theorem quoted_double (hrest : c.rest = cs.flatMap escaped ++ '"' :: tail) (hcol : c.column ≠ 0) :
    ∃ d : Cursor, Scalar.quoted true c = some (cs, d) ∧ d.rest = tail := by
  have hlen : cs.length ≤ (cs.flatMap escaped).length := by
    have hc (c : Char) : 1 ≤ (escaped c).length := by
      rw [escaped]
      split
      · simp
      · split
        · simp
        · dsimp only
          split
          · simp
          · split <;> simp
    clear hrest
    induction cs with
    | nil => exact Nat.zero_le _
    | cons c cs ih =>
      have := hc c
      rw [List.flatMap_cons, List.length_append, List.length_cons]
      omega
  refine isQuoting_double.quotedFrom trivial (by simp) hrest hcol ?_
  rw [hrest, List.length_append, List.length_cons]
  omega

end HeaderMiner.Yaml
