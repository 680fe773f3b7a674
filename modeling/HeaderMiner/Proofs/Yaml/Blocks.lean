import HeaderMiner.Proofs.Yaml.Gaps
/-!
# Literal blocks read back

A block is its lines, each behind two spaces, and the breaks at its end, all of which are written.  The
reader takes the lines (`blockLines_append`) and leaves all the breaks at the end with the last of
them; the marks behind the sign say which of these belong to the text (`finish_blockMarks`).
-/

namespace HeaderMiner.Yaml

variable {cs xs ys bs ends body text : List Char} {c : Cursor} {i l w : Nat} {done : List Char}

/-! ## how a block is written -/

theorem blockFrom_line (hs : ∀ c ∈ xs, isBreak c = false) :
    blockFrom false (xs ++ ys) = xs ++ blockFrom false ys := by
  induction xs with
  | nil => rfl
  | cons x xs ih =>
    rw [List.forall_mem_cons] at hs
    rw [List.cons_append, blockFrom, if_neg (by simp [hs.1]), ih hs.2]
    rfl

theorem blockFrom_breaks (hs : ∀ c ∈ xs, isBreak c = true) (hne : xs ≠ []) (broken : Bool) :
    blockFrom broken (xs ++ ys) = xs ++ blockFrom true ys := by
  induction xs generalizing broken with
  | nil => exact absurd rfl hne
  | cons x xs ih =>
    rw [List.forall_mem_cons] at hs
    rw [List.cons_append, blockFrom, if_pos hs.1]
    cases xs with
    | nil => rfl
    | cons x' xs =>
      rw [ih hs.2 nofun]
      rfl

theorem blockFrom_true {x : Char} (hx : isBreak x = false) :
    blockFrom true (x :: xs) = ' ' :: ' ' :: blockFrom false (x :: xs) := by
  have hx : ¬isBreak x = true := by simp [hx]
  rw [blockFrom, blockFrom, if_neg hx, if_neg hx]
  rfl

theorem blockFrom_trail (hs : ∀ c ∈ bs, isBreak c = true) (broken : Bool) :
    blockFrom broken (xs ++ bs) = blockFrom broken xs ++ bs := by
  induction xs generalizing broken with
  | nil =>
    rw [List.nil_append]
    by_cases hne : bs = []
    · rw [hne]
      rfl
    · have hw : blockFrom broken (bs ++ []) = bs ++ blockFrom true [] :=
        blockFrom_breaks hs hne broken
      rw [List.append_nil] at hw
      rw [hw]
      cases broken <;> simp [blockFrom]
  | cons x xs ih =>
    rw [List.cons_append, blockFrom, blockFrom]
    split
    · rw [ih]
      rfl
    · rw [ih]
      simp

theorem forall_mem_blockFrom {p : Char → Prop} (hs : p ' ') (h : ∀ c ∈ cs, p c) (broken : Bool) :
    ∀ c ∈ blockFrom broken cs, p c := by
  induction cs generalizing broken with
  | nil => nofun
  | cons x xs ih =>
    rw [List.forall_mem_cons] at h
    rw [blockFrom]
    split
    · exact List.forall_mem_cons.2 ⟨h.1, ih h.2 true⟩
    · refine List.forall_mem_append.2 ⟨?_, List.forall_mem_cons.2 ⟨h.1, ih h.2 false⟩⟩
      split <;> simp [hs]

theorem length_blockFrom (broken : Bool) (cs : List Char) :
    cs.length ≤ (blockFrom broken cs).length := by
  induction cs generalizing broken with
  | nil => exact Nat.zero_le _
  | cons c cs ih =>
    have htrue := ih true
    have hfalse := ih false
    rw [blockFrom]
    split <;> simp only [List.length_append, List.length_cons] <;> omega

/-! ## empty lines -/

namespace Scalar

theorem emptyLines_breaks {indent : Option Nat} (hb : ∀ b ∈ bs, IsLineEnd b) :
    emptyLines indent w done i l 0 (bs ++ text) =
      emptyLines indent w (done ++ bs) (i + bs.length) (l + bs.length) 0 text := by
  induction bs generalizing done i l with
  | nil =>
    rw [List.append_nil]
    rfl
  | cons b bs ih =>
    rw [List.forall_mem_cons] at hb
    obtain ⟨hb, hbs⟩ := hb
    have hblank := hb.isBlank
    simp only [isBlank, Bool.or_eq_false_iff, decide_eq_false_iff_not] at hblank
    rw [List.cons_append, emptyLines, if_neg fun h => hblank.1 h.1, if_neg fun h => hblank.2 h.1,
      if_pos hb.isBreak, hb.normalBreak, Nat.max_zero, ih hbs, List.length_cons]
    · simp only [List.append_assoc, List.singleton_append, Nat.add_assoc, Nat.add_comm 1]
    · intro _ he
      exact absurd he hb.ne

theorem emptyLines_solid {indent : Option Nat} (ht : IsSolid text) (k : Nat) :
    emptyLines indent w done i l k text = some (done, max w k, ⟨text, i, l, k⟩) := by
  cases text with
  | nil => rfl
  | cons ch text =>
    have hg := ht ch rfl
    rw [isGap, Bool.or_eq_false_iff] at hg
    have hblank := hg.1
    simp only [isBlank, Bool.or_eq_false_iff, decide_eq_false_iff_not] at hblank
    rw [emptyLines, if_neg fun h => hblank.1 h.1, if_neg fun h => hblank.2 h.1,
      if_neg (by simp [hg.2])]
    rintro _ rfl
    exact absurd hg.2 (by decide)

/-- the indentation of a line, where it is known or ends at the text of the line -/
theorem emptyLines_indent {indent : Option Nat} {x : Char}
    (hi : indent = some 2 ∨ indent = none ∧ isGap x = false) (hx : isBreak x = false) :
    emptyLines indent w done i l 0 (' ' :: ' ' :: x :: xs) =
      some (done, max w 2, ⟨x :: xs, i + 2, l, 2⟩) := by
  have hspace {k : Nat} (hk : k < 2) (r : List Char) (i : Nat) :
      emptyLines indent w done i l k (' ' :: r) = emptyLines indent w done (i + 1) l (k + 1) r := by
    have hin : indent.all (k < ·) = true := by
      rcases hi with rfl | ⟨rfl, -⟩
      · simpa using hk
      · rfl
    rw [emptyLines, if_pos ⟨rfl, hin⟩]
    nofun
  rw [hspace (by decide), hspace (by decide)]
  rcases hi with rfl | ⟨rfl, hg⟩
  · have hr : x ≠ '\r' := by
      rintro rfl
      exact absurd hx (by decide)
    rw [emptyLines, if_neg fun h => absurd h.2 (by simp), if_neg fun h => absurd h.2 (by simp),
      if_neg (by simp [hx])]
    exact fun _ he _ => absurd he hr
  · exact emptyLines_solid (isSolid_cons hg) 2

/-! ## lines -/

theorem addLine_literal (b : Block) (line lineBreak breaks : List Char) :
    b.addLine false line lineBreak breaks =
      ⟨b.text ++ b.lineBreak ++ b.emptyBreaks ++ line, lineBreak, breaks, line.head?.any isBlank⟩ :=
  rfl

theorem blockLines_line {line : List Char} {b : Block} {fuel : Nat} {e : Char}
    (hline : ∀ c ∈ line, isBreak c = false) (he : IsLineEnd e) (hbs : ∀ b ∈ bs, IsLineEnd b)
    (hrest : c.rest = line ++ e :: (bs ++ text)) (hcol : c.column = 2) :
    blockLines false 2 (fuel + 1) b c =
      (emptyLines (some 2) 0 bs (c.index + line.length + 1 + bs.length) (c.line + 1 + bs.length) 0
        text).bind fun p => blockLines false 2 fuel (b.addLine false line [e] p.1) p.2.2 := by
  have htake : (c.rest.takeWhile fun ch => !isBreak ch) = line := by
    rw [hrest, List.takeWhile_append_of_pos (by simpa using hline),
      List.takeWhile_cons_of_neg (by simp [he.isBreak]), List.append_nil]
  have hskip := Cursor.skip_append hrest rfl
  have hempty : c.rest.isEmpty = false := by
    rw [hrest]
    simp
  rw [blockLines, if_neg (by simp [hcol, hempty]), htake]
  dsimp only
  rw [hskip, Cursor.skipBreak_of_rest rfl he]
  simp only [List.head?_cons, Option.map_some, Option.toList_some, he.normalBreak]
  rw [emptyLines_breaks hbs]
  rfl

theorem blockLines_append {fuel : Nat} {e : Char} (b : Block)
    (hp : ∀ c ∈ body, isPrintable c = true) (hfirst : ∃ a r, body = a :: r ∧ isBreak a = false)
    (hlast : ∀ c ∈ body.getLast?, isBreak c = false) (he : IsLineEnd e)
    (hbs : ∀ b ∈ bs, IsLineEnd b) (ht : IsSolid text)
    (hrest : c.rest = blockFrom false body ++ e :: (bs ++ text)) (hcol : c.column = 2)
    (hfuel : body.length < fuel) :
    ∃ blank d, blockLines false 2 fuel b c =
        some (⟨b.text ++ b.lineBreak ++ b.emptyBreaks ++ body, [e], bs, blank⟩, d) ∧
      d.rest = text ∧ d.column = 0 := by
  induction fuel generalizing body b c with
  | zero => cases hfuel
  | succ fuel ih =>
    obtain ⟨line, more, rfl, hline, hmore⟩ := exists_split (fun c => !isBreak c) body
    simp only [Bool.not_eq_true', Bool.not_eq_false'] at hline hmore
    rw [blockFrom_line hline, List.append_assoc] at hrest
    cases more with
    | nil =>
      -- the last line: only what is behind its break is left
      obtain ⟨a, r, hcons, -⟩ := hfirst
      obtain ⟨fuel, rfl⟩ : ∃ k, fuel = k + 1 := by
        rw [hcons] at hfuel
        exact ⟨fuel - 1, by simp only [List.length_cons] at hfuel; omega⟩
      rw [blockLines_line hline he hbs hrest hcol, emptyLines_solid ht, Option.bind_some,
        blockLines, if_pos (.inl (by simp)), List.append_nil, addLine_literal]
      exact ⟨_, _, rfl, rfl, rfl⟩
    | cons f more =>
      -- a run of breaks, and the next line
      obtain ⟨run, rest, rfl, hrun, hstop⟩ := exists_split isBreak more
      have hrun : ∀ b ∈ f :: run, isBreak b = true := List.forall_mem_cons.2 ⟨hmore f rfl, hrun⟩
      rw [List.getLast?_append_of_ne_nil _ (by simp)] at hlast
      have hrestne : rest ≠ [] := rest_ne_nil (by simp) hrun hlast
      obtain ⟨x, q, rfl⟩ := List.exists_cons_of_ne_nil hrestne
      have hx : isBreak x = false := hstop x rfl
      have hends : ∀ b ∈ f :: run, IsLineEnd b := fun b hb =>
        isLineEnd_of_isPrintable
          (hp b (List.mem_append_right _ (List.mem_append_left _ hb))) (hrun b hb)
      rw [List.forall_mem_cons] at hends
      rw [← List.cons_append, blockFrom_breaks hrun nofun, blockFrom_true hx] at hrest
      have hhead : ∃ y, blockFrom false (x :: q) = x :: y := ⟨_, by rw [blockFrom, hx]; rfl⟩
      obtain ⟨y, hy⟩ := hhead
      have hnext : c.rest =
          line ++ f :: (run ++ ' ' :: ' ' :: (blockFrom false (x :: q) ++ e :: (bs ++ text))) := by
        rw [hrest]
        simp only [List.append_assoc, List.cons_append]
      have hlast' : ∀ c ∈ (x :: q).getLast?, isBreak c = false := by
        rwa [← List.cons_append, List.getLast?_append_of_ne_nil _ hrestne] at hlast
      have hlen : (x :: q).length < fuel := by
        simp only [List.length_append, List.length_cons] at hfuel ⊢
        omega
      rw [blockLines_line hline hends.1 hends.2 hnext hcol, hy, List.cons_append,
        emptyLines_indent (.inl rfl) hx, Option.bind_some]
      obtain ⟨blank, d, hd, hdrest, hdcol⟩ := ih (b.addLine false line [f] run)
        (fun c hc => hp c (List.mem_append_right _ (List.mem_append_right (f :: run) hc)))
        ⟨x, q, rfl, hx⟩ hlast'
        (c := ⟨x :: (y ++ e :: (bs ++ text)), c.index + line.length + 1 + run.length + 2,
          c.line + 1 + run.length, 2⟩) (by rw [hy]; rfl) rfl hlen
      refine ⟨blank, d, ?_, hdrest, hdcol⟩
      rw [hd, addLine_literal]
      simp only [List.append_assoc, List.cons_append, List.nil_append]

/-! ## marks -/

/-- what becomes of the breaks at the end of a text that is written as a block -/
def chompOf (cs : List Char) : Chomp :=
  if keepsBreaks cs then .keep else if cs.getLast?.any isBreak then .clip else .strip

/-- the indentation, where a block says it -/
def incrementOf (cs : List Char) : Option Nat :=
  if cs.head?.any fun c => c = ' ' || isBreak c then some 2 else none

theorem blockHeader_blockMarks (r : List Char) :
    blockHeader (blockMarks cs ++ '\n' :: r) = some (chompOf cs, incrementOf cs, '\n' :: r) := by
  unfold blockMarks chompOf incrementOf
  generalize (cs.head?.any fun c => c = ' ' || isBreak c) = gap
  generalize keepsBreaks cs = kept
  generalize cs.getLast?.any isBreak = ended
  cases gap <;> cases kept <;> cases ended <;> rfl

/-- a text and the breaks at its end -/
theorem exists_trail (cs : List Char) : ∃ body trail, cs = body ++ trail ∧
    (∀ c ∈ trail, isBreak c = true) ∧ ∀ c ∈ body.getLast?, isBreak c = false := by
  obtain ⟨xs, ys, h, hxs, hys⟩ := exists_split isBreak cs.reverse
  refine ⟨ys.reverse, xs.reverse, ?_, fun c hc => hxs c (List.mem_reverse.1 hc), ?_⟩
  · rw [← List.reverse_append, ← h, List.reverse_reverse]
  · rwa [List.getLast?_reverse]

/-- what may follow a block: no break where its own count, and one behind a last line -/
structure Closes (cs ends : List Char) : Prop where
  kept : keepsBreaks cs = true → ends = []
  line : (cs.getLast?.any isBreak) = false → ends ≠ []

theorem keepsBreaks_append (hl : 2 ≤ ys.length) (hs : ∀ c ∈ ys, isBreak c = true) :
    keepsBreaks (xs ++ ys) = true := by
  have hr : ∀ c ∈ ys.reverse, isBreak c = true := fun c hc => hs c (List.mem_reverse.1 hc)
  rw [keepsBreaks, List.reverse_append]
  match h : ys.reverse with
  | [] | [_] =>
    have hlen := congrArg List.length h
    simp only [List.length_reverse, List.length_cons, List.length_nil] at hlen
    omega
  | a :: b :: r =>
    rw [h] at hr
    simp [hr]

theorem keepsBreaks_of_breaks (hne : cs ≠ []) (hs : ∀ c ∈ cs, isBreak c = true) :
    keepsBreaks cs = true := by
  have hr : ∀ c ∈ cs.reverse, isBreak c = true := fun c hc => hs c (List.mem_reverse.1 hc)
  unfold keepsBreaks
  split
  · next h =>
    rw [h] at hr
    rw [hr _ (by simp), hr _ (by simp)]
    rfl
  · next h =>
    rw [h] at hr
    exact hr _ (by simp)
  · next h => exact absurd (List.reverse_eq_nil_iff.1 h) hne

theorem any_getLast?_of_keepsBreaks (h : keepsBreaks cs = true) :
    cs.getLast?.any isBreak = true := by
  rw [← List.head?_reverse]
  unfold keepsBreaks at h
  split at h
  · next hr =>
    rw [hr]
    exact (Bool.and_eq_true_iff.1 h).1
  · next hr =>
    rw [hr]
    exact h
  · cases h

/-- the marks keep of the breaks at the end those of the text -/
theorem finish_blockMarks {trail : List Char} {e : Char} {blank : Bool} (hne : body ≠ [])
    (hlast : ∀ c ∈ body.getLast?, isBreak c = false) (htrail : ∀ c ∈ trail, isBreak c = true)
    (hc : Closes (body ++ trail) ends) (heq : trail ++ ends = e :: bs) :
    (Block.mk body [e] bs blank).finish (chompOf (body ++ trail)) = body ++ trail := by
  obtain ⟨body, a, rfl⟩ := List.eq_nil_or_concat body |>.resolve_left hne
  have ha : isBreak a = false := hlast a (by simp)
  match trail with
  | [] =>
    have hkeep : keepsBreaks (body.concat a ++ []) = false := by
      cases h : body.reverse <;> simp [keepsBreaks, ha, h]
    have hstrip : chompOf (body.concat a ++ []) = .strip := by
      rw [chompOf, hkeep]
      simp [ha]
    rw [hstrip]
    simp [Block.finish]
  | [t] =>
    have hb : isBreak t = true := htrail t (by simp)
    have hkeep : keepsBreaks (body.concat a ++ [t]) = false := by
      simp [keepsBreaks, ha]
    have hclip : chompOf (body.concat a ++ [t]) = .clip := by
      rw [chompOf, hkeep]
      simp [hb]
    rw [hclip]
    obtain rfl : t = e := (List.cons.inj heq).1
    simp [Block.finish]
  | t :: u :: trail =>
    have hkeep : keepsBreaks (body.concat a ++ t :: u :: trail) = true :=
      keepsBreaks_append (by simp) htrail
    have hends := hc.kept hkeep
    rw [hends, List.append_nil] at heq
    rw [chompOf, hkeep, heq]
    simp [Block.finish]

theorem endLine?_break {e : Char} (he : IsLineEnd e) (hrest : c.rest = e :: xs) :
    c.endLine? = some ⟨xs, c.index + 1, c.line + 1, 0⟩ := by
  have hskip : c.skipWhile isBlank = c := Cursor.skipWhile_of_head (by simp [hrest, he.isBlank])
  have hhash : c.rest.head? ≠ some '#' := by
    rw [hrest]
    rintro ⟨⟩
    exact absurd he.isBreak (by decide)
  rw [Cursor.endLine?, hskip]
  rw [if_neg hhash, Cursor.skipBreak_of_rest hrest he, hrest]
  exact if_pos he.isBreak

/-- the indentation of the first line, said or seen -/
theorem emptyLines_first {lead q r : List Char} {x : Char} (hlead : ∀ b ∈ lead, IsLineEnd b)
    (hx : isBreak x = false) (hp : isPrintable x = true) :
    emptyLines (incrementOf (lead ++ x :: q)) 0 [] i l 0 (lead ++ ' ' :: ' ' :: x :: r) =
      some (lead, 2, ⟨x :: r, i + lead.length + 2, l + lead.length, 2⟩) := by
  have hsaid : incrementOf (lead ++ x :: q) = some 2 ∨
      incrementOf (lead ++ x :: q) = none ∧ isGap x = false := by
    cases lead with
    | nil =>
      by_cases hs : x = ' '
      · exact .inl (by simp [incrementOf, hs])
      · refine .inr ⟨by simp [incrementOf, hs, hx], Bool.eq_false_iff.2 fun hg => ?_⟩
        rcases (isGap_iff hp).1 hg with h | h
        · exact hs h
        · rw [h.isBreak] at hx
          cases hx
    | cons b lead => exact .inl (by simp [incrementOf, (hlead b List.mem_cons_self).isBreak])
  rw [emptyLines_breaks hlead, emptyLines_indent hsaid hx]
  rfl

/-- the lines of a text that has any, behind the line of the sign -/
theorem exists_lines {e : Char} (hp : ∀ c ∈ body, isPrintable c = true) (hne : body ≠ [])
    (hlast : ∀ c ∈ body.getLast?, isBreak c = false) (he : IsLineEnd e)
    (hbs : ∀ b ∈ bs, IsLineEnd b) (ht : IsSolid text) (trail : List Char) :
    ∃ breaks c blank d, emptyLines (incrementOf (body ++ trail)) 0 [] i l 0
        (blockFrom true body ++ e :: (bs ++ text)) = some (breaks, 2, c) ∧
      blockLines false 2 (c.rest.length + 1) ⟨[], [], breaks, false⟩ c =
        some (⟨body, [e], bs, blank⟩, d) ∧ d.rest = text ∧ d.column = 0 := by
  obtain ⟨lead, rest, rfl, hlead, hstop⟩ := exists_split isBreak body
  have hrestne : rest ≠ [] := rest_ne_nil hne hlead hlast
  obtain ⟨x, q, rfl⟩ := List.exists_cons_of_ne_nil hrestne
  have hx : isBreak x = false := hstop x rfl
  have hends : ∀ b ∈ lead, IsLineEnd b := fun b hb =>
    isLineEnd_of_isPrintable (hp b (List.mem_append_left _ hb)) (hlead b hb)
  have hwrite : blockFrom true (lead ++ x :: q) =
      lead ++ ' ' :: ' ' :: blockFrom false (x :: q) := by
    by_cases hnil : lead = []
    · rw [hnil]
      exact blockFrom_true hx
    · rw [blockFrom_breaks hlead hnil, blockFrom_true hx]
  obtain ⟨y, hy⟩ : ∃ y, blockFrom false (x :: q) = x :: y := ⟨_, by rw [blockFrom, hx]; rfl⟩
  have hxp := hp x (List.mem_append_right _ List.mem_cons_self)
  have hfirst := emptyLines_first (i := i) (l := l) (q := q ++ trail) (r := y ++ e :: (bs ++ text))
    hends hx hxp
  have hlast' : ∀ c ∈ (x :: q).getLast?, isBreak c = false := by
    rwa [List.getLast?_append_of_ne_nil _ hrestne] at hlast
  have hlen : (x :: q).length < (x :: (y ++ e :: (bs ++ text))).length + 1 := by
    have hle := length_blockFrom false (x :: q)
    rw [hy] at hle
    simp only [List.length_cons, List.length_append] at hle ⊢
    omega
  obtain ⟨blank, d, hd, hdrest, hdcol⟩ := blockLines_append ⟨[], [], lead, false⟩
    (fun c hc => hp c (List.mem_append_right _ hc)) ⟨x, q, rfl, hx⟩ hlast' he hbs ht
    (c := ⟨x :: (y ++ e :: (bs ++ text)), i + lead.length + 2, l + lead.length, 2⟩)
    (by rw [hy]; rfl) rfl hlen
  refine ⟨lead, _, blank, d, ?_, hd, hdrest, hdcol⟩
  rw [hwrite, hy]
  simpa using hfirst

theorem block_of_lines {r : List Char} (hrest : c.rest = blockMarks cs ++ '\n' :: r)
    (hlines : ∀ i l, ∃ breaks widest d b d',
      emptyLines (incrementOf cs) 0 [] i l 0 r = some (breaks, widest, d) ∧
      (incrementOf cs).getD (max widest 1) = 2 ∧
      blockLines false 2 (d.rest.length + 1) ⟨[], [], breaks, false⟩ d = some (b, d') ∧
      b.finish (chompOf cs) = cs ∧ d'.rest = text ∧ d'.column = 0) :
    ∃ d, Scalar.block false (some 0) c = some (cs, d) ∧ d.rest = text ∧ d.column = 0 := by
  have hheader : blockHeader c.rest = some (chompOf cs, incrementOf cs, '\n' :: r) := by
    rw [hrest, blockHeader_blockMarks]
  have hline := endLine?_break (c := c.moveTo ('\n' :: r)) (.inl rfl) rfl
  obtain ⟨breaks, widest, d, b, d', hempty, hindent, hb, hfinish, hd', hcol⟩ := hlines
    ((c.moveTo ('\n' :: r)).index + 1) ((c.moveTo ('\n' :: r)).line + 1)
  refine ⟨d', ?_, hd', hcol⟩
  rw [Scalar.block, hheader]
  simp only [Option.bind_eq_bind, Option.bind_some, hline, Option.getD_some, Nat.zero_add,
    Option.map_id_fun', id_eq, hempty, hindent, hb, hfinish, Option.pure_def]

/-- a literal block behind its sign, up to the next text -/
theorem block_literal (hp : ∀ c ∈ cs, isPrintable c = true) (hne : cs ≠ [])
    (he : ∀ b ∈ ends, IsLineEnd b) (hc : Closes cs ends) (ht : IsSolid text)
    (hrest : c.rest = blockMarks cs ++ '\n' :: (blockFrom true cs ++ (ends ++ text))) :
    ∃ d, Scalar.block false (some 0) c = some (cs, d) ∧ d.rest = text ∧ d.column = 0 := by
  obtain ⟨body, trail, rfl, htrail, hlast⟩ := exists_trail cs
  have htrail' : ∀ b ∈ trail, IsLineEnd b := fun b hb =>
    isLineEnd_of_isPrintable (hp b (List.mem_append_right _ hb)) (htrail b hb)
  rw [blockFrom_trail htrail] at hrest
  by_cases hnil : body = []
  · -- a text of breaks alone has no line, and all of them are kept
    obtain rfl := hnil
    rw [List.nil_append] at hne hc hrest ⊢
    have hkeep := keepsBreaks_of_breaks hne htrail
    have hsaid : incrementOf trail = some 2 := by
      obtain ⟨b, trail, rfl⟩ := List.exists_cons_of_ne_nil hne
      simp [incrementOf, htrail b List.mem_cons_self]
    rw [hc.kept hkeep, blockFrom, List.nil_append, List.nil_append] at hrest
    refine block_of_lines hrest fun i l => ?_
    have hempty : emptyLines (incrementOf trail) 0 [] i l 0 (trail ++ text) =
        some (trail, 0, ⟨text, i + trail.length, l + trail.length, 0⟩) := by
      rw [emptyLines_breaks htrail', emptyLines_solid ht]
      rfl
    have hfinish : (Block.mk [] [] trail false).finish (chompOf trail) = trail := by
      rw [chompOf, hkeep]
      rfl
    exact ⟨_, _, _, ⟨[], [], trail, false⟩, _, hempty, by rw [hsaid]; rfl,
      if_pos (.inl nofun), hfinish, rfl, rfl⟩
  · have hends : trail ++ ends ≠ [] := by
      intro h
      obtain ⟨rfl, rfl⟩ := List.append_eq_nil_iff.1 h
      refine hc.line ?_ rfl
      rw [List.append_nil, List.getLast?_eq_some_getLast hnil]
      exact hlast _ (List.getLast?_eq_some_getLast hnil)
    obtain ⟨e, bs, heq⟩ := List.exists_cons_of_ne_nil hends
    have hall : ∀ b ∈ e :: bs, IsLineEnd b := by
      rw [← heq]
      exact List.forall_mem_append.2 ⟨htrail', he⟩
    rw [List.forall_mem_cons] at hall
    have hwritten : blockFrom true body ++ trail ++ (ends ++ text) =
        blockFrom true body ++ e :: (bs ++ text) := by
      rw [List.append_assoc, ← List.append_assoc trail, heq, List.cons_append]
    rw [hwritten] at hrest
    refine block_of_lines hrest fun i l => ?_
    obtain ⟨breaks, d, blank, d', hempty, hlines, hd', hcol⟩ := exists_lines (i := i) (l := l)
      (fun c hc => hp c (List.mem_append_left _ hc)) hnil hlast hall.1 hall.2 ht trail
    have hindent : (incrementOf (body ++ trail)).getD (max 2 1) = 2 := by
      unfold incrementOf
      split <;> rfl
    exact ⟨breaks, 2, d, _, d', hempty, hindent, hlines,
      finish_blockMarks hnil hlast htrail hc heq, hd', hcol⟩

end Scalar

end HeaderMiner.Yaml
