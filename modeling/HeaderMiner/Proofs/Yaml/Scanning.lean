import HeaderMiner.Proofs.Yaml.Blocks
import HeaderMiner.Proofs.Yaml.PlainText
import HeaderMiner.Proofs.Yaml.Quotes
/-!
# Lines scanned

Between two tokens the scanner stands either in front of a line (`Ready`) or behind the mark of a value
or an item on one (`Inside`), with the tokens so far and with nothing open but the mapping at column
zero (`Holds`).  One step leads from one of these states to the next, and a run is a chain of steps
(`Steps`), each of which moves on in the text.
-/

namespace HeaderMiner.Yaml

namespace Scanner

variable {s t u : Scanner} {ts : List Token} {ks : List Nat} {text w ends : List Char}

/-! ## steps -/

/-- goes to the next token: over gaps, and out of what ends in front of it -/
def prepare (s : Scanner) : Option Scanner := do
  let s ← (s.skipGap (s.cursor.rest.length + 1)).forgetStale
  return s.closeBlocks (some s.cursor.column)

theorem run_succ (fuel : Nat) (s : Scanner) : run (fuel + 1) s = s.prepare.bind fun s =>
    match s.cursor.rest with
    | [] => s.finish
    | c :: r => (s.token c r).bind (run fuel) := by
  rw [run, prepare]
  cases (s.skipGap (s.cursor.rest.length + 1)).forgetStale <;> rfl

/-- one state leads to another over tokens, of which there are no more than characters -/
def Steps (s t : Scanner) : Prop :=
  ∃ k, k + t.cursor.rest.length ≤ s.cursor.rest.length ∧ ∀ fuel, run (fuel + k) s = run fuel t

theorem Steps.refl (s : Scanner) : Steps s s := ⟨0, by omega, fun _ => rfl⟩

theorem Steps.trans (h : Steps s t) (h' : Steps t u) : Steps s u := by
  obtain ⟨k, hk, hrun⟩ := h
  obtain ⟨k', hk', hrun'⟩ := h'
  refine ⟨k' + k, by omega, fun fuel => ?_⟩
  rw [← Nat.add_assoc, hrun, hrun']

theorem Steps.single {c : Char} (hp : s.prepare = some t) (hr : t.cursor.rest = c :: w)
    (ht : t.token c w = some u) (hl : u.cursor.rest.length < s.cursor.rest.length) : Steps s u := by
  refine ⟨1, by omega, fun fuel => ?_⟩
  rw [run_succ, hp, Option.bind_some, hr]
  dsimp only
  rw [ht, Option.bind_some]

/-! ## tokens so far -/

def tokens (s : Scanner) : List Token := linearise s.filled s.entries.reverse

theorem linearise_append (filled : List (Nat × Bool)) (xs ys : List Entry) :
    linearise filled (xs ++ ys) = linearise filled xs ++ linearise filled ys :=
  List.flatMap_append

/-- a place that is filled later leaves the entries alone that do not hold it -/
theorem linearise_cons {n : Nat} {b : Bool} {filled : List (Nat × Bool)} {es : List Entry}
    (h : ∀ m, .place m ∈ es → m ≠ n) : linearise ((n, b) :: filled) es = linearise filled es := by
  induction es with
  | nil => rfl
  | cons e es ih =>
    have hes := ih fun m hm => h m (List.mem_cons_of_mem _ hm)
    rw [linearise, linearise, List.flatMap_cons, List.flatMap_cons]
    rw [linearise, linearise] at hes
    rw [hes]
    cases e with
    | token t => rfl
    | place m =>
      have hm : (m == n) = false := beq_eq_false_iff_ne.2 (h m List.mem_cons_self)
      simp only [List.lookup_cons, hm]

/-- what holds outside of flow collections: the tokens so far, the columns of the open collections,
no key that has to come, and new places -/
structure Holds (s : Scanner) (ts : List Token) (ks : List Nat) : Prop where
  block : s.outer = []
  optional : ∀ k ∈ s.candidate, k.required = false
  columns : s.columns = ks
  filled : ∀ p ∈ s.filled, p.1 < s.places
  placed : ∀ n, .place n ∈ s.entries → n < s.places
  tokens : s.tokens = ts

theorem Holds.not_inFlow (h : Holds s ts ks) : s.inFlow = false := by
  rw [inFlow, h.block]
  rfl

theorem Holds.move (h : Holds s ts ks) (c : Cursor) (allowed : Bool) :
    Holds { s with cursor := c, keyAllowed := allowed } ts ks :=
  ⟨h.block, h.optional, h.columns, h.filled, h.placed, h.tokens⟩

theorem Holds.drop (h : Holds s ts ks) : Holds { s with candidate := none } ts ks :=
  ⟨h.block, nofun, h.columns, h.filled, h.placed, h.tokens⟩

theorem Holds.dropCandidate (h : Holds s ts ks) :
    s.dropCandidate = some { s with candidate := none } := by
  have hno : ¬(s.candidate.any (·.required)) = true := by
    cases hc : s.candidate with
    | none => nofun
    | some k => simp [h.optional k hc]
  rw [Scanner.dropCandidate, if_neg hno]

theorem Holds.add (h : Holds s ts ks) (t : Token) : Holds (s.add t) (ts ++ [t]) ks where
  block := h.block
  optional := h.optional
  columns := h.columns
  filled := h.filled
  placed n hn := h.placed n (by simpa [Scanner.add] using hn)
  tokens := by
    rw [← h.tokens, Scanner.tokens, Scanner.add, List.reverse_cons, linearise_append]
    rfl

/-! ## to the next token -/

/-- what a line starts with, if it is not empty -/
def IsLine (text : List Char) : Prop :=
  ∀ c ∈ text.head?, isGap c = false ∧ c ≠ '#' ∧ c ≠ '\ufeff'

theorem isLine_cons {c : Char} (h : isGap c = false ∧ c ≠ '#' ∧ c ≠ '\ufeff') : IsLine (c :: w) := by
  rintro _ ⟨⟩
  exact h

theorem IsLine.isSolid (h : IsLine text) : IsSolid text := fun c hc => (h c hc).1

theorem IsLine.not_isBreak (h : IsLine text) : ¬text.head?.any isBreak = true := by
  cases text with
  | nil => nofun
  | cons c text =>
    have hg := (h c rfl).1
    rw [isGap, Bool.or_eq_false_iff] at hg
    simp [hg.2]

/-- one pass over a line, up to a break or the next token -/
theorem skipGap_succ (fuel : Nat) (hb : s.cursor.rest.head? ≠ some '\ufeff') (sp : List Char)
    (hsp : ∀ c ∈ sp, c = ' ') (hr : s.cursor.rest = sp ++ text)
    (ht : ∀ c ∈ text.head?, isBlank c = false ∧ c ≠ '#') :
    s.skipGap (fuel + 1) =
      let c : Cursor := ⟨text, s.cursor.index + sp.length, s.cursor.line, s.cursor.column + sp.length⟩
      if c.rest.head?.any isBreak then
        skipGap fuel { s with cursor := c.skipBreak, keyAllowed := s.keyAllowed || !s.inFlow }
      else { s with cursor := c } := by
  have hskip : (s.cursor.skipWhile fun ch => ch = ' ' || (ch = '\t' && (s.inFlow || !s.keyAllowed))) =
      ⟨text, s.cursor.index + sp.length, s.cursor.line, s.cursor.column + sp.length⟩ := by
    have hdrop : (s.cursor.rest.dropWhile
        fun ch => ch = ' ' || (ch = '\t' && (s.inFlow || !s.keyAllowed))) = text := by
      rw [hr, List.dropWhile_append_of_pos (fun c hc => by simp [hsp c hc])]
      cases text with
      | nil => rfl
      | cons c text =>
        have hc := (ht c rfl).1
        simp only [isBlank, Bool.or_eq_false_iff, decide_eq_false_iff_not] at hc
        exact List.dropWhile_cons_of_neg (by simp [hc.1, hc.2])
    rw [Cursor.skipWhile, hdrop, Cursor.moveTo_append hr]
  have hhash : text.head? ≠ some '#' := fun h => (ht '#' h).2 rfl
  have hmark : (if s.cursor.index = 0 ∧ s.cursor.rest.head? = some '\ufeff' then s.cursor.skip 1
      else s.cursor) = s.cursor := if_neg fun h => hb h.2
  rw [skipGap]
  dsimp only
  rw [hmark, hskip, if_neg hhash]

/-- on the line of a token, only the spaces in front of it are left behind -/
theorem skipGap_line (fuel : Nat) (sp : List Char) (hsp : ∀ c ∈ sp, c = ' ')
    (hr : s.cursor.rest = sp ++ text) (ht : IsLine text) : s.skipGap (fuel + 1) = { s with
      cursor := ⟨text, s.cursor.index + sp.length, s.cursor.line, s.cursor.column + sp.length⟩ } := by
  have hb : s.cursor.rest.head? ≠ some '\ufeff' := by
    rw [hr]
    cases sp with
    | nil => exact fun h => (ht _ h).2.2 rfl
    | cons c sp =>
      rintro ⟨⟩
      exact absurd (hsp _ List.mem_cons_self) (by decide)
  rw [skipGap_succ fuel hb sp hsp hr fun c hc =>
    ⟨(Bool.or_eq_false_iff.1 (ht c hc).1).1, (ht c hc).2.1⟩]
  exact if_neg ht.not_isBreak

theorem skipGap_stay (fuel : Nat) (ht : IsLine s.cursor.rest) : s.skipGap (fuel + 1) = s := by
  rw [skipGap_line fuel [] (List.forall_mem_nil _) (List.nil_append _).symm ht]
  rfl

/-- over breaks, to the start of a line, where a key may stand -/
theorem skipGap_breaks {fuel : Nat} (hflow : s.outer = []) (he : ∀ b ∈ ends, IsLineEnd b)
    (hr : s.cursor.rest = ends ++ text) (ht : IsLine text)
    (hstart : ends = [] → s.cursor.column = 0 ∧ s.keyAllowed = true) (hfuel : ends.length < fuel) :
    ∃ d : Cursor, s.skipGap fuel = { s with cursor := d, keyAllowed := true } ∧
      d.rest = text ∧ d.column = 0 := by
  induction ends generalizing s fuel with
  | nil =>
    obtain ⟨fuel, rfl⟩ : ∃ k, fuel = k + 1 := ⟨fuel - 1, by simp at hfuel; omega⟩
    obtain ⟨hcol, hkey⟩ := hstart rfl
    rw [skipGap_line fuel [] (List.forall_mem_nil _) hr ht, ← hkey]
    exact ⟨_, rfl, rfl, hcol⟩
  | cons b ends ih =>
    obtain ⟨fuel, rfl⟩ : ∃ k, fuel = k + 1 := ⟨fuel - 1, by simp at hfuel; omega⟩
    rw [List.forall_mem_cons] at he
    obtain ⟨hb, he⟩ := he
    have hmark : s.cursor.rest.head? ≠ some '\ufeff' := by
      rw [hr]
      rintro ⟨⟩
      exact absurd hb.isBreak (by decide)
    have hnext : ∀ c ∈ (b :: (ends ++ text)).head?, isBlank c = false ∧ c ≠ '#' := by
      rintro _ ⟨⟩
      refine ⟨hb.isBlank, ?_⟩
      rintro rfl
      exact absurd hb.isBreak (by decide)
    rw [skipGap_succ fuel hmark [] nofun hr hnext]
    dsimp only
    rw [List.head?_cons, Option.any_some, if_pos hb.isBreak, Cursor.skipBreak_of_rest rfl hb]
    have hin : s.inFlow = false := by
      rw [inFlow, hflow]
      rfl
    have hlen : ends.length < fuel := by
      rw [List.length_cons] at hfuel
      omega
    obtain ⟨d, hd, hrest, hcol⟩ := ih (s := { s with
      cursor := ⟨ends ++ text, s.cursor.index + [].length + 1, s.cursor.line + 1, 0⟩
      keyAllowed := s.keyAllowed || !s.inFlow }) hflow he rfl
      (fun _ => ⟨rfl, by simp [hin]⟩) hlen
    exact ⟨d, hd, hrest, hcol⟩

/-- the mapping at column zero stays open in front of a token -/
theorem closeBlocks_some (hks : s.columns = [] ∨ s.columns = [0]) (k : Nat) :
    s.closeBlocks (some k) = s := by
  rw [closeBlocks]
  split
  · rfl
  · rcases hks with hks | hks
    · rw [hks, closeTo, ← hks]
    · rw [hks, closeTo, if_neg (by simp), ← hks]

/-- what need not be a key may be forgotten -/
theorem exists_refresh {x : Option KeyPlace} (h : ∀ k ∈ x, k.required = false) (c : Cursor) :
    ∃ y, refresh c x = some y ∧ ∀ k ∈ y, k.required = false := by
  cases x with
  | none => exact ⟨none, rfl, nofun⟩
  | some k =>
    have hk := h k rfl
    by_cases hstale : isStale c k = true
    · exact ⟨none, by simp [refresh, hstale, hk], nofun⟩
    · exact ⟨some k, by simp [refresh, hstale], h⟩

theorem Holds.prepare (h : Holds t ts ks) (hks : ks = [] ∨ ks = [0])
    (hs : s.skipGap (s.cursor.rest.length + 1) = t) : ∃ u, s.prepare = some u ∧ Holds u ts ks ∧
      u.cursor = t.cursor ∧ u.keyAllowed = t.keyAllowed := by
  obtain ⟨candidate, hcandidate, hoptional⟩ := exists_refresh h.optional t.cursor
  have hforget : t.forgetStale = some { t with candidate, outer := [] } := by
    rw [forgetStale, hcandidate, h.block]
    rfl
  refine ⟨{ t with candidate, outer := [] }, ?_,
    ⟨rfl, hoptional, h.columns, h.filled, h.placed, h.tokens⟩, rfl, rfl⟩
  rw [Scanner.prepare, hs, hforget, Option.bind_eq_bind, Option.bind_some,
    closeBlocks_some (by rw [h.columns]; exact hks)]
  rfl

/-- in front of a line, or of the breaks in front of it -/
structure Ready (s : Scanner) (text : List Char) (ts : List Token) (ks : List Nat) : Prop
    extends Holds s ts ks where
  line : ∃ ends, s.cursor.rest = ends ++ text ∧ (∀ b ∈ ends, IsLineEnd b) ∧
    (ends = [] → s.cursor.column = 0 ∧ s.keyAllowed = true)

/-- behind the mark of a value or an item -/
structure Inside (s : Scanner) (text : List Char) (ts : List Token) (ks : List Nat) : Prop
    extends Holds s ts ks where
  rest : s.cursor.rest = ' ' :: text
  column : s.cursor.column ≠ 0

structure At (s : Scanner) (text : List Char) (ts : List Token) (ks : List Nat) : Prop
    extends Holds s ts ks where
  rest : s.cursor.rest = text

theorem Ready.prepare (h : Ready s text ts ks) (hks : ks = [] ∨ ks = [0]) (ht : IsLine text) :
    ∃ u, s.prepare = some u ∧ At u text ts ks ∧ u.cursor.column = 0 ∧ u.keyAllowed = true := by
  obtain ⟨ends, hr, he, hstart⟩ := h.line
  have hfuel : ends.length < s.cursor.rest.length + 1 := by
    rw [hr, List.length_append]
    omega
  obtain ⟨d, hd, hrest, hcol⟩ := skipGap_breaks h.block he hr ht hstart hfuel
  obtain ⟨u, hu, hholds, hcursor, hkey⟩ := (h.move d true).prepare hks hd
  exact ⟨u, hu, ⟨hholds, by rw [hcursor, hrest]⟩, by rw [hcursor, hcol], hkey⟩

theorem Inside.prepare (h : Inside s text ts ks) (hks : ks = [] ∨ ks = [0]) (ht : IsLine text) :
    ∃ u, s.prepare = some u ∧ At u text ts ks ∧ u.cursor.column ≠ 0 := by
  have hskip := skipGap_line s.cursor.rest.length [' '] (by simp) h.rest ht
  obtain ⟨u, hu, hholds, hcursor, -⟩ := (h.move _ s.keyAllowed).prepare hks hskip
  exact ⟨u, hu, ⟨hholds, by rw [hcursor]⟩, by simp [hcursor]⟩

/-! ## places -/

/-- makes a place where a key may stand -/
def withPlace (s : Scanner) : Scanner := { s with
  entries := .place s.places :: s.entries
  places := s.places + 1
  candidate := some ⟨s.places, s.columns.head? == some s.cursor.column, s.cursor.index,
    s.cursor.line, s.cursor.column⟩ }

theorem Holds.reserve_of_allowed (h : Holds s ts ks) (hk : s.keyAllowed = true) :
    s.reserve = some s.withPlace := by
  have hin : inFlow { s with candidate := none } = false := h.not_inFlow
  rw [reserve, if_pos hk, h.dropCandidate]
  simp only [Option.bind_eq_bind, Option.bind_some, hin, Bool.not_false, Bool.true_and]
  rfl

theorem Holds.lookup_places (h : Holds s ts ks) : s.filled.lookup s.places = none := by
  rw [List.lookup_eq_none_iff]
  intro p hp
  have hlt := h.filled p hp
  simpa using Nat.ne_of_gt hlt

theorem Holds.tokens_withPlace (h : Holds s ts ks) : s.withPlace.tokens = ts := by
  rw [← h.tokens]
  show linearise s.filled (Entry.place s.places :: s.entries).reverse = _
  rw [List.reverse_cons, linearise_append]
  simp only [linearise, List.flatMap_cons, List.flatMap_nil, h.lookup_places, List.append_nil]
  rfl

theorem Holds.withPlace (h : Holds s ts ks) (hcol : ks.head? ≠ some s.cursor.column) :
    Holds s.withPlace ts ks where
  block := h.block
  optional := by
    rintro _ ⟨⟩
    rw [h.columns]
    exact beq_eq_false_iff_ne.2 hcol
  columns := h.columns
  filled p hp := Nat.lt_succ_of_lt (h.filled p hp)
  placed n hn := by
    rcases List.mem_cons.1 hn with hn | hn
    · obtain rfl := Entry.place.inj hn
      exact Nat.lt_succ_self _
    · exact Nat.lt_succ_of_lt (h.placed n hn)
  tokens := h.tokens_withPlace

theorem Holds.reserve (h : Holds s ts ks) (hcol : ks.head? ≠ some s.cursor.column) :
    ∃ t, s.reserve = some t ∧ Holds t ts ks ∧ t.cursor = s.cursor := by
  by_cases hk : s.keyAllowed = true
  · exact ⟨_, h.reserve_of_allowed hk, h.withPlace hcol, rfl⟩
  · exact ⟨s, by rw [Scanner.reserve, if_neg hk], h, rfl⟩

/-! ## scalars -/

theorem isIndicator_iff {c : Char} :
    isIndicator c = true ↔ c ∈ "-?:,[]\x7b\x7d#&*!|>'\"%@\x60".toList := by simp [isIndicator]

theorem startsPlain_of_not_isOpening {c : Char} (hgap : isGap c = false) (hopen : isOpening c = false)
    (hnext : c = '-' ∨ c = '?' ∨ c = ':' → startsGap w = false) :
    startsPlain false (c :: w) = true := by
  have hblank (hw : startsGap w = false) : w.head?.any isBlank = false := by
    cases w with
    | nil => rfl
    | cons d w => exact (Bool.or_eq_false_iff.1 hw).1
  by_cases hdash : c = '-'
  · simp [startsPlain, hdash, hblank (hnext (.inl hdash))]
  · by_cases hmark : c = '?' ∨ c = ':'
    · have hw := hnext (.inr hmark)
      simp [startsPlain, hw, hmark]
    · have hall : ("-?:,[]\x7b\x7d#&*!|>'\"%@\x60".toList.all fun d => d == '-' ||
          ((d == '?' || d == ':') || "#,[]\x7b\x7d&*!|>'\"%@\x60".toList.contains d)) = true := by
        decide
      have hind : isIndicator c = false := by
        refine Bool.eq_false_iff.2 fun hi => ?_
        have hc := List.all_eq_true.1 hall c (isIndicator_iff.1 hi)
        simp only [Bool.or_eq_true, beq_iff_eq, List.contains_iff_mem] at hc
        rw [isOpening_iff.2 ((hc.resolve_left hdash).resolve_left hmark)] at hopen
        cases hopen
      simp [startsPlain, hgap, hind]

theorem token_plain {c : Char} (hflow : s.inFlow = false) (hmark : s.cursor.atMarker = false)
    (hgap : isGap c = false) (hopen : isOpening c = false)
    (hnext : c = '-' ∨ c = '?' ∨ c = ':' → startsGap w = false) :
    s.token c w = s.plainScalar := by
  have hno {d : Char} (hd : d ∈ "#,[]\x7b\x7d&*!|>'\"%@\x60".toList) : c ≠ d := by
    rintro rfl
    rw [isOpening_iff.2 hd] at hopen
    cases hopen
  have hplain (d : Char) (hd : d = '-' ∨ d = '?' ∨ d = ':') : ¬(c = d ∧ startsGap w = true) := by
    rintro ⟨rfl, hw⟩
    rw [hnext hd] at hw
    cases hw
  have hstarts := startsPlain_of_not_isOpening hgap hopen hnext
  rw [token]
  simp only [hmark, hflow, Bool.false_or, hstarts, hplain '-' (by simp), hplain '?' (by simp),
    hplain ':' (by simp), hno (d := '%') (by decide), hno (d := '[') (by decide),
    hno (d := '\x7b') (by decide), hno (d := ']') (by decide), hno (d := '\x7d') (by decide),
    hno (d := ',') (by decide), hno (d := '*') (by decide), hno (d := '&') (by decide),
    hno (d := '!') (by decide), hno (d := '|') (by decide), hno (d := '>') (by decide),
    hno (d := '\'') (by decide), hno (d := '"') (by decide), and_false, false_and, if_false,
    Bool.false_eq_true, if_true]

theorem token_quote (hmark : s.cursor.atMarker = false) (double : Bool) :
    s.token (if double then '"' else '\'') w = s.quotedScalar double := by
  cases double <;> simp [token, hmark]

theorem token_block (hflow : s.inFlow = false) (hmark : s.cursor.atMarker = false) :
    s.token '|' w = s.blockScalar false := by simp [token, hmark, hflow]

variable {style : Style} {v : String}

/-- whether a text can be written in a style -/
def IsWritten : Style → List Char → Prop
  | .plain, cs => IsPlain cs ∧ cs ≠ []
  | .singleQuoted, cs => IsSingle cs
  | .doubleQuoted, _ => True
  | .literal, cs => (∀ c ∈ cs, isPrintable c = true) ∧ cs ≠ []
  | .folded, _ => False

/-- whether breaks end the line of a text in a style -/
def Fits : Style → List Char → List Char → Prop
  | .literal, cs, ends => Scalar.Closes cs ends
  | _, _, ends => ends ≠ []

theorem Holds.addScalar (h : Holds s ts ks) (style : Style) (v : String) (c : Cursor)
    (allowed : Bool) : Holds { s.addScalar style v.toList c with keyAllowed := allowed }
      (ts ++ [.scalar style v]) ks := by
  rw [Scanner.addScalar, String.ofList_toList]
  exact (h.add _).move c allowed

theorem At.plain (h : At s (v.toList ++ (ends ++ text)) ts [0]) (hcol : s.cursor.column ≠ 0)
    (hv : IsPlain v.toList) (hne : v.toList ≠ []) (he : ∀ b ∈ ends, IsLineEnd b) (hends : ends ≠ [])
    (ht : IsLine text) : ∃ c w t, s.cursor.rest = c :: w ∧ s.token c w = some t ∧
      t.cursor.rest.length ≤ (ends ++ text).length ∧ Ready t text (ts ++ [.scalar .plain v]) [0] := by
  obtain ⟨a, r, hcons⟩ := List.exists_cons_of_ne_nil hne
  have hrest : s.cursor.rest = a :: (r ++ (ends ++ text)) := by
    rw [h.rest, hcons]
    rfl
  have hgap : isGap a = false := by
    rw [hcons] at hv
    exact hv.head_not_isGap
  have hnext (hm : a = '-' ∨ a = '?' ∨ a = ':') : startsGap (r ++ (ends ++ text)) = false := by
    have hmark := hv.unmarked
    rw [hcons] at hmark
    rw [startsGap_append (startsGap_ends he hends)]
    rcases hm with rfl | rfl | rfl <;> simp [hasMark] at hmark <;> exact hmark.1.2
  have hopen : isOpening a = false := by
    rw [hcons] at hv
    exact hv.not_isOpening
  obtain ⟨t, hres, hholds, hcursor⟩ := h.reserve (by simpa using Ne.symm hcol)
  obtain ⟨d, hd, hdrest, hdcol⟩ := plain_append hv hne he hends ht.isSolid
    (c := t.cursor) (by rw [hcursor, h.rest]) (by rwa [hcursor])
  have hlen : d.rest.length ≤ (ends ++ text).length := by
    rw [hdrest, List.length_append]
    omega
  refine ⟨a, _, { t.addScalar .plain v.toList d with keyAllowed := true }, hrest, ?_, hlen,
    ⟨hholds.addScalar .plain v d true, [], hdrest, List.forall_mem_nil _, fun _ => ⟨hdcol, rfl⟩⟩⟩
  rw [token_plain h.not_inFlow (Cursor.atMarker_of_column hcol) hgap hopen hnext, plainScalar, hres]
  simp only [Option.bind_eq_bind, Option.bind_some, hholds.columns, List.head?_cons,
    hholds.not_inFlow, hd, Option.pure_def]

theorem At.quoted (double : Bool) (body : List Char)
    (h : At s ((if double then '"' else '\'') :: (body ++ (if double then '"' else '\'') ::
      (ends ++ text))) ts [0]) (hcol : s.cursor.column ≠ 0) (he : ∀ b ∈ ends, IsLineEnd b)
    (hends : ends ≠ []) (hread : ∀ c : Cursor,
      c.rest = body ++ (if double then '"' else '\'') :: (ends ++ text) → c.column ≠ 0 →
      ∃ d : Cursor, Scalar.quoted double c = some (v.toList, d) ∧ d.rest = ends ++ text) :
    ∃ c w t, s.cursor.rest = c :: w ∧ s.token c w = some t ∧
      t.cursor.rest.length ≤ (ends ++ text).length ∧
      Ready t text (ts ++ [.scalar (if double then .doubleQuoted else .singleQuoted) v]) [0] := by
  obtain ⟨t, hres, hholds, hcursor⟩ := h.reserve (by simpa using Ne.symm hcol)
  have hskip := Cursor.skip_one (c := t.cursor) (by rw [hcursor, h.rest])
  obtain ⟨d, hd, hdrest⟩ := hread (t.cursor.skip 1) (by rw [hskip]) (by rw [hskip]; simp)
  refine ⟨_, _, { t.addScalar (if double then .doubleQuoted else .singleQuoted) v.toList d with
    keyAllowed := false }, h.rest, ?_, Nat.le_of_eq (congrArg _ hdrest),
    ⟨hholds.addScalar _ v d false, ends, hdrest, he, fun hnil => absurd hnil hends⟩⟩
  rw [token_quote (Cursor.atMarker_of_column hcol), quotedScalar, hres]
  simp only [Option.bind_eq_bind, Option.bind_some, hd, Option.pure_def]

theorem At.literal (h : At s (literalText v.toList ++ (ends ++ text)) ts [0])
    (hcol : s.cursor.column ≠ 0) (hp : ∀ c ∈ v.toList, isPrintable c = true) (hne : v.toList ≠ [])
    (he : ∀ b ∈ ends, IsLineEnd b) (hc : Scalar.Closes v.toList ends) (ht : IsLine text) :
    ∃ c w t, s.cursor.rest = c :: w ∧ s.token c w = some t ∧
      t.cursor.rest.length ≤ (ends ++ text).length ∧ Ready t text (ts ++ [.scalar .literal v]) [0] := by
  have hrest : s.cursor.rest =
      '|' :: (blockMarks v.toList ++ '\n' :: (blockFrom true v.toList ++ (ends ++ text))) := by
    rw [h.rest, literalText]
    simp only [List.append_assoc, List.cons_append]
  have hskip := Cursor.skip_one hrest
  obtain ⟨d, hd, hdrest, hdcol⟩ := Scalar.block_literal hp hne he hc ht.isSolid
    (c := s.cursor.skip 1) (by rw [hskip])
  have hlen : d.rest.length ≤ (ends ++ text).length := by
    rw [hdrest, List.length_append]
    omega
  refine ⟨_, _, { addScalar { s with candidate := none } .literal v.toList d with
    keyAllowed := true }, hrest, ?_, hlen,
    ⟨h.drop.addScalar .literal v d true, [], hdrest, nofun, fun _ => ⟨hdcol, rfl⟩⟩⟩
  rw [token_block h.not_inFlow (Cursor.atMarker_of_column hcol), blockScalar, h.dropCandidate]
  simp only [Option.bind_eq_bind, Option.bind_some, h.columns, List.head?_cons, hd, Option.pure_def,
    Bool.false_eq_true, if_false]

theorem isLine_scalarText (hw : IsWritten style v.toList) : IsLine (scalarText style v ++ w) := by
  cases style with
  | plain =>
    obtain ⟨hv, hne⟩ := hw
    obtain ⟨a, r, hcons⟩ := List.exists_cons_of_ne_nil hne
    rw [scalarText, hcons]
    rw [hcons] at hv
    refine isLine_cons ⟨hv.head_not_isGap, ?_, ?_⟩
    · rintro rfl
      exact absurd hv.not_isOpening (by simp [isOpening])
    · rintro rfl
      exact absurd (hv.printable _ List.mem_cons_self) (by decide)
  | singleQuoted | doubleQuoted | literal => exact isLine_cons (by decide)
  | folded => exact hw.elim

theorem Inside.token {goal : Scanner → Prop} (h : Inside s text ts ks) (hks : ks = [] ∨ ks = [0])
    (ht : IsLine text) (htoken : ∀ u, At u text ts ks → u.cursor.column ≠ 0 →
      ∃ c w t, u.cursor.rest = c :: w ∧ u.token c w = some t ∧
        t.cursor.rest.length ≤ text.length ∧ goal t) : ∃ t, Steps s t ∧ goal t := by
  obtain ⟨u, hu, hat, hcol⟩ := h.prepare hks ht
  obtain ⟨c, w, t, hr, htok, hlen, hgoal⟩ := htoken u hat hcol
  refine ⟨t, Steps.single hu hr htok ?_, hgoal⟩
  rw [h.rest, List.length_cons]
  omega

/-- a scalar in any style, up to the next line -/
theorem Inside.scalar (h : Inside s (scalarText style v ++ (ends ++ text)) ts [0])
    (hw : IsWritten style v.toList) (he : ∀ b ∈ ends, IsLineEnd b) (hf : Fits style v.toList ends)
    (ht : IsLine text) : ∃ t, Steps s t ∧ Ready t text (ts ++ [.scalar style v]) [0] := by
  refine h.token (.inr rfl) (isLine_scalarText hw) fun u hu hcol => ?_
  have hle {n : Nat} (hn : n ≤ (ends ++ text).length) :
      n ≤ (scalarText style v ++ (ends ++ text)).length := by
    rw [List.length_append]
    omega
  cases style with
  | plain =>
    obtain ⟨c, w, t, hr, htok, hlen, hready⟩ := At.plain hu hcol hw.1 hw.2 he hf ht
    exact ⟨c, w, t, hr, htok, hle hlen, hready⟩
  | singleQuoted =>
    have hhead : (ends ++ text).head? ≠ some '\'' := by
      obtain ⟨b, ends, rfl⟩ := List.exists_cons_of_ne_nil hf
      rintro ⟨⟩
      exact absurd (he _ List.mem_cons_self).isBreak (by decide)
    obtain ⟨c, w, t, hr, htok, hlen, hready⟩ := At.quoted (v := v) false
      (singleFrom false v.toList) (by simpa [scalarText, singleText] using hu) hcol he hf
      fun c hc hcol => quoted_single hw hhead hc hcol
    exact ⟨c, w, t, hr, htok, hle hlen, hready⟩
  | doubleQuoted =>
    obtain ⟨c, w, t, hr, htok, hlen, hready⟩ := At.quoted (v := v) true
      (v.toList.flatMap escaped) (by simpa [scalarText, doubleText] using hu) hcol he hf
      fun c hc hcol => quoted_double hc hcol
    exact ⟨c, w, t, hr, htok, hle hlen, hready⟩
  | literal =>
    obtain ⟨c, w, t, hr, htok, hlen, hready⟩ := At.literal hu hcol hw.1 hw.2 he hf ht
    exact ⟨c, w, t, hr, htok, hle hlen, hready⟩
  | folded => exact hw.elim

end Scanner

end HeaderMiner.Yaml
