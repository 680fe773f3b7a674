import HeaderMiner.Proofs.Text.Digits
import HeaderMiner.Proofs.Yaml.Gaps
/-!
# Plain texts read back

A text that can be written plain is a sequence of pieces with spaces between them, and in no piece
anything is met that would end it (`plainPiece_append`).  So it is read up to the end of its line, and
the gap behind it ends in front of the next text (`plain_append`).
-/

namespace HeaderMiner.Yaml

variable {cs xs ys ends text : List Char} {before : Option Char}

/-! ## marks -/

theorem isOpening_iff {c : Char} :
    isOpening c = true ↔ c ∈ "#,[]\x7b\x7d&*!|>'\"%@\x60".toList := by simp [isOpening]

theorem hasMark_cons {c : Char} (h : hasMark before (c :: cs) = false) :
    ¬(c = ':' ∧ startsGap cs = true) ∧ hasMark (some c) cs = false := by
  cases before with
  | none =>
    simp only [hasMark, Bool.or_eq_false_iff, Bool.and_eq_false_iff, decide_eq_false_iff_not] at h
    obtain ⟨⟨-, h⟩, hm⟩ := h
    refine ⟨?_, hm⟩
    rintro ⟨hc, hs⟩
    rcases h with h | h
    · exact h.1.2 hc
    · rw [hs] at h
      cases h
  | some b =>
    simp only [hasMark, Bool.or_eq_false_iff, Bool.and_eq_false_iff, decide_eq_false_iff_not] at h
    obtain ⟨⟨h, -⟩, hm⟩ := h
    refine ⟨?_, hm⟩
    rintro ⟨hc, hs⟩
    rcases h with h | h
    · exact h hc
    · rw [hs] at h
      cases h

theorem hasMark_append (h : hasMark before (xs ++ ys) = false) :
    hasMark (xs.getLast?.or before) ys = false := by
  induction xs generalizing before with
  | nil => exact h
  | cons x xs ih =>
    have hx := ih (hasMark_cons h).2
    rw [List.getLast?_cons]
    cases hl : xs.getLast? with
    | none => rwa [hl] at hx
    | some l => rwa [hl] at hx

theorem startsGap_append {w : List Char} (hw : startsGap w = true) :
    startsGap (cs ++ w) = startsGap cs := by
  cases cs with
  | nil => exact hw
  | cons c cs => rfl

theorem hasMark_of_append (hw : startsGap ys = true) (h : hasMark before (xs ++ ys) = false) :
    hasMark before xs = false := by
  induction xs generalizing before with
  | nil => rfl
  | cons x xs ih =>
    have hx := ih (hasMark_cons h).2
    cases before with
    | none =>
      simp only [List.cons_append, hasMark, startsGap_append hw] at h ⊢
      rw [Bool.or_eq_false_iff] at h ⊢
      exact ⟨h.1, hx⟩
    | some b =>
      simp only [List.cons_append, hasMark, startsGap_append hw] at h ⊢
      rw [Bool.or_eq_false_iff] at h ⊢
      exact ⟨h.1, hx⟩

theorem plainPiece_append {w : List Char} (hw : w ≠ []) (hgap : startsGap w = true)
    (hs : ∀ c ∈ cs, isGap c = false) (hm : hasMark before cs = false) :
    Scalar.plainPiece false (cs ++ w) = some (cs, w) := by
  induction cs generalizing before with
  | nil =>
    obtain ⟨e, w, rfl⟩ := List.exists_cons_of_ne_nil hw
    have he : isGap e = true := hgap
    rw [List.nil_append, Scalar.plainPiece, if_pos he]
  | cons c cs ih =>
    rw [List.forall_mem_cons] at hs
    obtain ⟨hcolon, hm⟩ := hasMark_cons hm
    rw [List.cons_append, Scalar.plainPiece, if_neg (by simp [hs.1]), startsGap_append hgap,
      if_neg hcolon, if_neg (by simp), if_neg (by simp), ih hs.2 hm]
    rfl

/-! ## whole texts -/

theorem startsGap_ends (he : ∀ b ∈ ends, IsLineEnd b) (hne : ends ≠ []) :
    startsGap (ends ++ text) = true := by
  obtain ⟨e, ends, rfl⟩ := List.exists_cons_of_ne_nil hne
  have hb := (he e List.mem_cons_self).isBreak
  show isGap e = true
  rw [isGap, hb, Bool.or_true]

/-- what a reader of pieces has before it: a piece, and after it spaces and more of them -/
structure StartsPiece (before : Option Char) (cs : List Char) : Prop where
  gap : ∀ c ∈ cs, isGap c = true → c = ' '
  first : ∃ a r, cs = a :: r ∧ a ≠ ' ' ∧ a ≠ '#'
  last : cs.getLast? ≠ some ' '
  unmarked : hasMark before cs = false

theorem StartsPiece.exists_piece (h : StartsPiece before cs) :
    ∃ piece more, cs = piece ++ more ∧ piece ≠ [] ∧ (∀ c ∈ piece, isGap c = false) ∧
      hasMark before piece = false ∧ startsGap more = true := by
  obtain ⟨piece, more, rfl, hpiece, hmore⟩ := exists_split (fun c => !isGap c) cs
  simp only [Bool.not_eq_true', Bool.not_eq_false'] at hpiece hmore
  have hstart : startsGap more = true := by
    cases more with
    | nil => rfl
    | cons m more => exact hmore m rfl
  refine ⟨piece, more, rfl, ?_, hpiece, hasMark_of_append hstart h.unmarked, hstart⟩
  rintro rfl
  -- the text starts with no space, and no other gap is in it
  obtain ⟨a, r, rfl, ha, -⟩ := h.first
  exact ha (h.gap a List.mem_cons_self (hmore a rfl))

theorem StartsPiece.exists_next {piece more : List Char} (h : StartsPiece before (piece ++ more))
    (hstart : startsGap more = true) (hmore : more ≠ []) :
    ∃ spaces rest, more = spaces ++ rest ∧ spaces ≠ [] ∧ (∀ b ∈ spaces, b = ' ') ∧
      StartsPiece (some ' ') rest := by
  have hlast := h.last
  rw [List.getLast?_append_of_ne_nil _ hmore] at hlast
  obtain ⟨m, more, rfl⟩ := List.exists_cons_of_ne_nil hmore
  obtain rfl : m = ' ' := h.gap m (by simp) hstart
  obtain ⟨spaces, rest, heq, hspaces, hsp, hstop⟩ :=
    exists_split_cons (p := (· = ' ')) (m := ' ') rfl more
  rw [heq] at h hlast hmore ⊢
  have hrest : rest ≠ [] := rest_ne_nil hmore hsp
    fun c hc => decide_eq_false fun he => hlast (he ▸ hc)
  rw [List.getLast?_append_of_ne_nil _ hrest] at hlast
  simp only [decide_eq_true_eq, decide_eq_false_iff_not] at hsp hstop
  obtain ⟨b, q, rfl⟩ := List.exists_cons_of_ne_nil hrest
  have hb : b ≠ ' ' := hstop b rfl
  have hmark : hasMark (some ' ') (b :: q) = false := by
    have hm := h.unmarked
    rw [← List.append_assoc] at hm
    have hm' := hasMark_append hm
    rwa [List.getLast?_append, List.getLast?_eq_some_getLast hspaces, Option.some_or,
      hsp _ (List.getLast_mem hspaces)] at hm'
  have hhash : b ≠ '#' := by
    rintro rfl
    simp [hasMark, show isGap ' ' = true from rfl] at hmark
  exact ⟨spaces, b :: q, rfl, hspaces, hsp,
    fun c hc => h.gap c (by simp [List.mem_cons.1 hc]), ⟨b, q, rfl, hb, hhash⟩, hlast, hmark⟩

theorem StartsPiece.isSolid (h : StartsPiece before cs) : IsSolid (cs ++ text) := by
  obtain ⟨a, r, rfl, ha, -⟩ := h.first
  exact isSolid_cons (Bool.eq_false_iff.2 fun hg => ha (h.gap a List.mem_cons_self hg))

theorem plainFrom_append (he : ∀ b ∈ ends, IsLineEnd b) (hne : ends ≠ []) (ht : IsSolid text)
    (fuel : Nat) (done : List Char) (gap : Gap) (c : Cursor) (hcs : StartsPiece before cs)
    (hrest : c.rest = cs ++ (ends ++ text)) (hcol : c.column ≠ 0) (hgap : gap.breaks = [])
    (hfuel : cs.length < fuel) :
    ∃ d : Cursor, Scalar.plainFrom false 1 fuel done gap c =
        some (done ++ gap.blanks ++ cs, d, true) ∧ d.rest = text ∧ d.column = 0 := by
  induction fuel generalizing done gap c cs before with
  | zero => cases hfuel
  | succ fuel ih =>
    have hhead : (c.rest.head? == some '#') = false := by
      obtain ⟨a, r, rfl, -, ha⟩ := hcs.first
      rw [hrest, List.cons_append, List.head?_cons]
      exact beq_eq_false_iff_ne.2 fun h => ha (Option.some.inj h)
    obtain ⟨piece, more, rfl, hp, hpiece, hmark, hmore⟩ := hcs.exists_piece
    have hw : more ++ (ends ++ text) ≠ [] := by simp [hne]
    have hpc : Scalar.plainPiece false c.rest = some (piece, more ++ (ends ++ text)) := by
      rw [hrest, List.append_assoc]
      refine plainPiece_append hw ?_ hpiece hmark
      rwa [startsGap_append (startsGap_ends he hne)]
    have hmove : c.moveTo (more ++ (ends ++ text)) =
        ⟨more ++ (ends ++ text), c.index + piece.length, c.line, c.column + piece.length⟩ :=
      Cursor.moveTo_append (by rw [hrest, List.append_assoc])
    have hfold : gap.folded = gap.blanks := by rw [Gap.folded, hgap]
    obtain ⟨a, p, rfl⟩ := List.exists_cons_of_ne_nil hp
    rw [Scalar.plainFrom, Cursor.atMarker_of_column hcol, hhead, Bool.or_false, if_neg (by decide),
      hpc]
    dsimp only
    rw [hfold, hmove]
    by_cases hnil : more = []
    · -- the last piece: the gap behind it is the end of the line
      obtain rfl := hnil
      obtain ⟨d, hd, hdrest, hdcol⟩ := Gap.take_breaks he hne
        (nofun : ∀ b ∈ ([] : List Char), b = ' ') ht
        (c := ⟨ends ++ text, c.index + (a :: p).length, c.line, c.column + (a :: p).length⟩) rfl
      refine ⟨d, ?_, hdrest, hdcol⟩
      have hno : ends.isEmpty = false := by simpa using hne
      rw [List.nil_append, hd, List.append_nil]
      simp [hno, hdcol]
    · -- spaces, and the next piece
      obtain ⟨spaces, rest, rfl, hspne, hsp, hnext⟩ := hcs.exists_next hmore hnil
      obtain ⟨d, htake, hd, hdcol⟩ := Gap.take_spaces hsp hnext.isSolid (List.append_assoc ..)
        (c := ⟨spaces ++ rest ++ (ends ++ text), c.index + (a :: p).length, c.line,
          c.column + (a :: p).length⟩)
      have hlen : rest.length < fuel := by
        simp only [List.length_append, List.length_cons] at hfuel
        omega
      have hdpos : d.column ≠ 0 := by
        rw [hdcol]
        simp
      obtain ⟨e, he', herest, hecol⟩ := ih (done ++ gap.blanks ++ (a :: p)) { blanks := spaces } d
        hnext hd hdpos rfl hlen
      refine ⟨e, ?_, herest, hecol⟩
      have hno : spaces.isEmpty = false := by simpa using hspne
      rw [htake]
      dsimp only
      rw [hno, if_neg (by decide), if_neg (by decide), if_neg (by simp [hdpos]), he']
      simp only [List.append_assoc]

/-- what makes a text one that can be written plain -/
structure IsPlain (cs : List Char) : Prop where
  printable : ∀ c ∈ cs, isPrintable c = true
  unbroken : ∀ c ∈ cs, isBreak c = false
  first : cs.head? ≠ some ' '
  last : cs.getLast? ≠ some ' '
  undotted : startsWithDots cs = false
  unmarked : hasMark none cs = false

theorem isPlain_of_admitsPlain (h : admitsPlain cs = true) : IsPlain cs := by
  simp only [admitsPlain, needsEscapes, Bool.not_eq_true', Bool.or_eq_false_iff,
    List.any_eq_false, Bool.not_eq_true] at h
  obtain ⟨⟨⟨⟨⟨⟨hp, -⟩, hb⟩, hf⟩, hl⟩, hd⟩, hm⟩ := h
  have hedge {c : Option Char} (hc : (c.any fun c => c = ' ' || isBreak c) = false) :
      c ≠ some ' ' := by
    rintro rfl
    cases hc
  exact ⟨fun c hc => by simpa using hp c hc, hb, hedge hf, hedge hl, hd, hm⟩

theorem IsPlain.gap (h : IsPlain cs) : ∀ c ∈ cs, isGap c = true → c = ' ' := by
  intro c hc hg
  rcases (isGap_iff (h.printable c hc)).1 hg with rfl | hb
  · rfl
  · have hno := h.unbroken c hc
    rw [hb.isBreak] at hno
    cases hno

theorem IsPlain.head_not_isGap {c : Char} (h : IsPlain (c :: cs)) : isGap c = false := by
  refine Bool.eq_false_iff.2 fun hg => h.first ?_
  rw [h.gap c List.mem_cons_self hg]
  rfl

theorem IsPlain.not_isOpening {c : Char} (h : IsPlain (c :: cs)) : isOpening c = false := by
  have hm := h.unmarked
  rw [hasMark, Bool.or_eq_false_iff, Bool.or_eq_false_iff] at hm
  exact hm.1.1

/-- a plain text up to the end of its line, and the breaks there -/
theorem plain_append (h : IsPlain cs) (hcs : cs ≠ []) (he : ∀ b ∈ ends, IsLineEnd b)
    (hne : ends ≠ []) (ht : IsSolid text) {c : Cursor} (hrest : c.rest = cs ++ (ends ++ text))
    (hcol : c.column ≠ 0) :
    ∃ d : Cursor, Scalar.plain false 1 c = some (cs, d, true) ∧ d.rest = text ∧ d.column = 0 := by
  obtain ⟨a, r, rfl⟩ := List.exists_cons_of_ne_nil hcs
  have ha : a ≠ ' ' := fun he => h.first (congrArg some he)
  have hhash : a ≠ '#' := by
    rintro rfl
    have hno := h.not_isOpening
    rw [isOpening_iff.2 (by decide)] at hno
    cases hno
  have hfuel : (a :: r).length < c.rest.length + 1 := by
    rw [hrest, List.length_append]
    omega
  exact plainFrom_append he hne ht _ [] {} c ⟨h.gap, ⟨a, r, rfl, ha, hhash⟩, h.last, h.unmarked⟩
    hrest hcol rfl hfuel

/-! ## names -/

/-- whether a text is one that keys are made of -/
structure IsName (name : List Char) : Prop where
  ne_nil : name ≠ []
  letters : ∀ c ∈ name, (c.isAlpha || c == '_') = true

variable {name w : List Char}

theorem IsName.ne (h : IsName name) {c d : Char} (hc : c ∈ name)
    (hd : (d.isAlpha || d == '_') = false) : c ≠ d := by
  rintro rfl
  rw [h.letters c hc] at hd
  cases hd

theorem IsName.not_isGap (h : IsName name) {c : Char} (hc : c ∈ name) : isGap c = false := by
  have hne {d : Char} (hd : (d.isAlpha || d == '_') = false) : c ≠ d := h.ne hc hd
  simp only [isGap, isBlank, isBreak, Bool.or_eq_false_iff, decide_eq_false_iff_not]
  exact ⟨⟨hne rfl, hne rfl⟩, (⟨⟨⟨⟨hne rfl, hne rfl⟩, hne rfl⟩, hne rfl⟩, hne rfl⟩)⟩

theorem IsName.isPrintable (h : IsName name) {c : Char} (hc : c ∈ name) : isPrintable c = true := by
  have hl : ((decide (c.val ≥ 'A'.val ∧ c.val ≤ 'Z'.val) ||
      (c.val ≥ 'a'.val && c.val ≤ 'z'.val)) || c == '_') = true := h.letters c hc
  simp only [Bool.or_eq_true, Bool.and_eq_true, decide_eq_true_eq, beq_iff_eq, ge_iff_le,
    UInt32.le_iff_toNat_le] at hl
  have hrange : c.toNat = 95 ∨ (65 ≤ c.toNat ∧ c.toNat ≤ 122) := by
    rcases hl with (hl | hl) | rfl
    · exact .inr ⟨hl.1, Nat.le_trans hl.2 (by decide)⟩
    · exact .inr ⟨Nat.le_trans (by decide) hl.1, hl.2⟩
    · exact .inl rfl
  simp only [Yaml.isPrintable, Bool.or_eq_true, Bool.and_eq_true, decide_eq_true_eq]
  omega

theorem IsName.not_isOpening (h : IsName name) {c : Char} (hc : c ∈ name) : isOpening c = false := by
  have hnone : ("#,[]\x7b\x7d&*!|>'\"%@\x60".toList.any fun d => d.isAlpha || d == '_') = false := by
    decide
  refine Bool.eq_false_iff.2 fun ho => ?_
  exact List.any_eq_false.1 hnone c (isOpening_iff.1 ho) (h.letters c hc)

theorem IsName.not_startsMarker (h : IsName name) : startsMarker (name ++ w) = false := by
  obtain ⟨a, r, rfl⟩ := List.exists_cons_of_ne_nil h.ne_nil
  have hdash := h.ne List.mem_cons_self (d := '-') rfl
  have hdot := h.ne List.mem_cons_self (d := '.') rfl
  unfold startsMarker
  split
  · next he => exact absurd (List.cons.inj he).1 hdash
  · next he => exact absurd (List.cons.inj he).1 hdot
  · rfl

theorem plainPiece_name (hgap : ∀ c ∈ name, isGap c = false) (hcolon : ∀ c ∈ name, c ≠ ':')
    (hw : startsGap w = true) :
    Scalar.plainPiece false (name ++ ':' :: w) = some (name, ':' :: w) := by
  induction name with
  | nil => rw [List.nil_append, Scalar.plainPiece, if_neg (by decide), if_pos ⟨rfl, hw⟩]
  | cons c name ih =>
    rw [List.forall_mem_cons] at hgap hcolon
    rw [List.cons_append, Scalar.plainPiece, if_neg (by simp [hgap.1]),
      if_neg fun h => hcolon.1 h.1, if_neg (by simp), if_neg (by simp), ih hgap.2 hcolon.2]
    rfl

theorem plain_name (hn : IsName name) (hw : startsGap w = true) {indent : Nat} {c : Cursor}
    (hrest : c.rest = name ++ ':' :: w) :
    Scalar.plain false indent c = some (name,
      ⟨':' :: w, c.index + name.length, c.line, c.column + name.length⟩, false) := by
  have hpiece : Scalar.plainPiece false c.rest = some (name, ':' :: w) := by
    rw [hrest]
    exact plainPiece_name (fun _ => hn.not_isGap) (fun _ hc => hn.ne hc rfl) hw
  have htake : Gap.take ⟨':' :: w, c.index + name.length, c.line, c.column + name.length⟩ =
      ({}, ⟨':' :: w, c.index + name.length, c.line, c.column + name.length⟩) :=
    Gap.takeFrom_solid (isSolid_cons rfl)
  rw [Scalar.plain, Scalar.plainFrom]
  obtain ⟨a, r, rfl⟩ := List.exists_cons_of_ne_nil hn.ne_nil
  have hmark : c.atMarker = false := by
    rw [Cursor.atMarker, hrest, hn.not_startsMarker, Bool.and_false]
  have hhead : (c.rest.head? == some '#') = false := by
    have hhash := hn.ne List.mem_cons_self (d := '#') rfl
    rw [hrest]
    simpa using hhash
  rw [hmark, hhead, hpiece]
  dsimp only
  rw [Cursor.moveTo_append hrest, htake]
  rfl

/-! ## letters and digits -/

theorem ne_of_isAlphanum {c d : Char} (hc : c.isAlphanum = true) (hd : d.isAlphanum = false) : c ≠ d := by
  rintro rfl
  rw [hc] at hd
  cases hd

theorem hasMark_of_isAlphanum {before : Option Char} (h : ∀ c ∈ cs, c.isAlphanum = true) :
    hasMark before cs = false := by
  induction cs generalizing before with
  | nil => cases before <;> rfl
  | cons c cs ih =>
    rw [List.forall_mem_cons] at h
    have hne {d : Char} (hd : d.isAlphanum = false) : c ≠ d := ne_of_isAlphanum h.1 hd
    have hopen : isOpening c = false := by
      have hnone : "#,[]\x7b\x7d&*!|>'\"%@\x60".toList.any Char.isAlphanum = false := by decide
      refine Bool.eq_false_iff.2 fun ho => ?_
      exact List.any_eq_false.1 hnone c (isOpening_iff.1 ho) h.1
    cases before <;> simp [hasMark, ih h.2, hopen, hne (d := ':') rfl, hne (d := '#') rfl,
      hne (d := '?') rfl, hne (d := '-') rfl]

theorem isPlain_of_isAlphanum (h : ∀ c ∈ cs, c.isAlphanum = true) : IsPlain cs := by
  have hne {c d : Char} (hc : c ∈ cs) (hd : d.isAlphanum = false) : c ≠ d := ne_of_isAlphanum (h c hc) hd
  refine ⟨?_, ?_, ?_, ?_, ?_, hasMark_of_isAlphanum h⟩
  · intro c hc
    have hd : ((decide (c.val ≥ 'A'.val ∧ c.val ≤ 'Z'.val) ||
        (c.val ≥ 'a'.val && c.val ≤ 'z'.val)) ||
        (c.val ≥ '0'.val && c.val ≤ '9'.val)) = true := h c hc
    simp only [Bool.or_eq_true, Bool.and_eq_true, decide_eq_true_eq, ge_iff_le,
      UInt32.le_iff_toNat_le] at hd
    have hrange : 48 ≤ c.toNat ∧ c.toNat ≤ 122 := by
      rcases hd with (hd | hd) | hd
      all_goals exact ⟨Nat.le_trans (by decide) hd.1, Nat.le_trans hd.2 (by decide)⟩
    simp only [isPrintable, Bool.or_eq_true, Bool.and_eq_true, decide_eq_true_eq]
    omega
  · intro c hc
    simp only [isBreak, Bool.or_eq_false_iff, decide_eq_false_iff_not]
    exact ⟨⟨⟨⟨hne hc rfl, hne hc rfl⟩, hne hc rfl⟩, hne hc rfl⟩, hne hc rfl⟩
  · exact fun he => hne (List.mem_of_mem_head? he) rfl rfl
  · exact fun he => hne (List.mem_of_getLast? he) rfl rfl
  · cases cs with
    | nil => rfl
    | cons c cs =>
      have hdash : c ≠ '-' := hne List.mem_cons_self rfl
      have hdot : c ≠ '.' := hne List.mem_cons_self rfl
      simp [startsWithDots, hdash, hdot]

/-! ## numbers -/

namespace Plain

theorem natural?_toDigits (n : Nat) : natural? (Nat.toDigits 10 n) = some n := by
  have hdigit {c : Char} (hc : c ∈ Nat.toDigits 10 n) : c.isDigit = true :=
    Nat.isDigit_of_mem_toDigits (by decide) (by decide) hc
  have hread : digits? 10 (Nat.toDigits 10 n) = some n := by
    rw [digits?, if_neg (by simp [Nat.toDigits_ne_nil])]
    have h := Text.digits?_toDigits (f := id) (b := 10) (by decide) (by decide) n
    rwa [List.map_id] at h
  have hzero : (Nat.toDigits 10 n).head? = some '0' → Nat.toDigits 10 n = ['0'] := by
    intro h
    rw [Text.head_toDigits h]
    rfl
  obtain ⟨c, r, hcs⟩ := List.exists_cons_of_ne_nil (Nat.toDigits_ne_nil (b := 10) (n := n))
  rw [hcs] at hdigit hread hzero ⊢
  have hc {d : Char} (hd : d.isDigit = false) : c ≠ d := by
    rintro rfl
    rw [hdigit List.mem_cons_self] at hd
    cases hd
  have hsign : isSign c = false := by simp [isSign, hc (d := '+') rfl, hc (d := '-') rfl]
  have hmark : marked? (c :: r) = none := by
    -- the letter of a base is no digit
    unfold marked?
    split
    · next he => exact absurd (hdigit (c := 'x') (by rw [he]; simp)) (by decide)
    · next he => exact absurd (hdigit (c := 'o') (by rw [he]; simp)) (by decide)
    · next he => exact absurd (hdigit (c := 'b') (by rw [he]; simp)) (by decide)
    · rfl
  have hpadded : isPadded (c :: r) = false := by
    rw [isPadded, unsigned, if_neg (by simp [hsign])]
    split
    · next he =>
      obtain ⟨rfl, rfl⟩ := List.cons.inj he
      rw [(List.cons.inj (hzero rfl)).2]
      rfl
    · rfl
  rw [natural?]
  · simp only [hmark, Option.bind_none, List.head?_cons, Option.any_some, hsign, hpadded,
      Bool.or_false, Bool.false_eq_true, if_false]
    exact hread
  · intro _ he
    exact hc rfl (List.cons.inj he).1

theorem bounded?_toString {n bound : Nat} (h : n < bound) : bounded? bound (toString n) = some n := by
  have htext : (toString n).toList = Nat.toDigits 10 n := Nat.toList_repr
  rw [bounded?, htext, natural?_toDigits]
  exact if_pos h

end Plain

end HeaderMiner.Yaml
