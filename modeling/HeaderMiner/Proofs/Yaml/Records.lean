import HeaderMiner.Proofs.Yaml.Scanning
/-!
# Records scanned

The tokens of a mapping of scalars and of sequences of scalars, read from the text that is written for
it: line by line, where a key opens the mapping or goes on with it, and at last the mapping is closed
(`tokens?_record`).
-/

namespace HeaderMiner.Yaml

namespace Scanner

variable {s t : Scanner} {ts : List Token} {ks : List Nat} {text w ends : List Char}

/-! ## keys -/

theorem token_colon (hflow : s.inFlow = false) (hmark : s.cursor.atMarker = false)
    (hw : startsGap w = true) : s.token ':' w = s.value := by
  simp [token, hmark, hflow, hw]

theorem isLine_name {name : List Char} (hn : IsName name) : IsLine (name ++ w) := by
  obtain ⟨a, r, rfl⟩ := List.exists_cons_of_ne_nil hn.ne_nil
  exact isLine_cons ⟨hn.not_isGap List.mem_cons_self, hn.ne List.mem_cons_self rfl,
    hn.ne List.mem_cons_self (by decide)⟩

/-- the state behind a key, which only its colon makes one -/
structure AtColon (s : Scanner) (name : String) (w : List Char) (ts : List Token) (ks : List Nat) :
    Prop where
  rest : s.cursor.rest = ':' :: w
  column : s.cursor.column ≠ 0
  block : s.outer = []
  columns : s.columns = ks
  candidate : ∃ k, s.candidate = some k ∧ k.column = 0 ∧ isStale s.cursor k = false ∧
    ∃ es, s.entries = .token (.scalar .plain name) :: .place k.place :: es ∧
      (∀ n, .place n ∈ es → n < k.place) ∧ linearise s.filled es.reverse = ts ∧
      k.place < s.places
  filled : ∀ p ∈ s.filled, p.1 < s.places

theorem AtColon.prepare {name : String} (h : AtColon s name w ts ks) (hks : ks = [] ∨ ks = [0]) :
    s.prepare = some s := by
  have hline : IsLine (':' :: w) := isLine_cons (by decide)
  have hsame := skipGap_stay (s := s) s.cursor.rest.length (by rwa [h.rest])
  obtain ⟨k, hk, -, hstale, -⟩ := h.candidate
  have hforget : s.forgetStale = some s := by
    rw [forgetStale, hk, h.block, refresh, hstale, ← hk]
    show some { s with candidate := s.candidate, outer := [] } = some s
    rw [← h.block]
  rw [Scanner.prepare, hsame, hforget, Option.bind_eq_bind, Option.bind_some,
    closeBlocks_some (by rw [h.columns]; exact hks)]
  rfl

theorem Ready.name {name : String} (h : Ready s (name.toList ++ ':' :: w) ts ks)
    (hks : ks = [] ∨ ks = [0]) (hn : IsName name.toList) (hlen : name.toList.length ≤ 1024)
    (hw : startsGap w = true) : ∃ t, Steps s t ∧ AtColon t name w ts ks := by
  obtain ⟨u, hu, hat, hcol, hkey⟩ := h.prepare hks (isLine_name hn)
  obtain ⟨ends, hr, -, -⟩ := h.line
  have hpos := List.length_pos_iff.2 hn.ne_nil
  obtain ⟨a, r, hcons⟩ := List.exists_cons_of_ne_nil hn.ne_nil
  have ha : a ∈ name.toList := by
    rw [hcons]
    exact List.mem_cons_self
  have hmark : u.cursor.atMarker = false := by
    rw [Cursor.atMarker, hat.rest, hn.not_startsMarker, Bool.and_false]
  have hrest : u.cursor.rest = a :: (r ++ ':' :: w) := by
    rw [hat.rest, hcons]
    rfl
  have hnext (hd : a = '-' ∨ a = '?' ∨ a = ':') : startsGap (r ++ ':' :: w) = false := by
    rcases hd with hd | hd | hd <;> exact absurd hd (hn.ne ha (by decide))
  have htoken : u.token a (r ++ ':' :: w) = some { u.withPlace.addScalar .plain name.toList
      ⟨':' :: w, u.cursor.index + name.toList.length, u.cursor.line,
        u.cursor.column + name.toList.length⟩ with keyAllowed := false } := by
    have hin : u.withPlace.inFlow = false := hat.not_inFlow
    rw [token_plain hat.not_inFlow hmark (hn.not_isGap ha) (hn.not_isOpening ha) hnext,
      plainScalar, hat.reserve_of_allowed hkey]
    simp only [Option.bind_eq_bind, Option.bind_some, hin]
    rw [show u.withPlace.columns = u.columns from rfl, show u.withPlace.cursor = u.cursor from rfl,
      plain_name hn hw hat.rest]
    rfl
  refine ⟨_, Steps.single hu hrest htoken ?_, rfl, ?_, hat.block, hat.columns, ⟨_, rfl, hcol, ?_, _,
    ?_, hat.placed, hat.tokens, Nat.lt_succ_self _⟩, fun p hp => Nat.lt_succ_of_lt (hat.filled p hp)⟩
  · show (':' :: w).length < s.cursor.rest.length
    rw [hr]
    simp only [List.length_append]
    omega
  · show u.cursor.column + name.toList.length ≠ 0
    omega
  · show (u.cursor.line < u.cursor.line || u.cursor.index + 1024 <
      u.cursor.index + name.toList.length) = false
    simp
    omega
  · show Entry.token (.scalar .plain (String.ofList name.toList)) :: _ = _
    rw [String.ofList_toList]
    rfl

/-- the first key opens the mapping -/
def opening (ks : List Nat) : List Token := if ks = [] then [.blockMapping] else []

theorem AtColon.value {name : String} (h : AtColon s name w ts ks) (hks : ks = [] ∨ ks = [0])
    (hw : startsGap w = true) : ∃ t, Steps s t ∧
      Holds t (ts ++ opening ks ++ [.key, .scalar .plain name, .value]) [0] ∧ t.cursor.rest = w ∧
      t.cursor.column ≠ 0 := by
  obtain ⟨k, hk, hcol, -, es, hes, hplaces, htokens, hlt⟩ := h.candidate
  have hflow : s.inFlow = false := by
    rw [inFlow, h.block]
    rfl
  have hskip := Cursor.skip_one h.rest
  have hdeeper : s.isDeeper k.column = decide (ks = []) := by
    rw [isDeeper, hflow, h.columns, hcol]
    rcases hks with rfl | rfl <;> rfl
  have htoken : s.token ':' w = some { s.addMark 1 .value with
      filled := (k.place, decide (ks = [])) :: s.filled
      columns := if decide (ks = []) then k.column :: s.columns else s.columns
      candidate := none
      keyAllowed := false } := by
    rw [token_colon hflow (Cursor.atMarker_of_column h.column) hw, Scanner.value, hk]
    dsimp only
    rw [hdeeper]
  refine ⟨_, Steps.single (h.prepare hks) h.rest htoken ?_, ⟨h.block,
    fun k hk => absurd hk (Option.not_mem_none k), ?_, ?_, ?_, ?_⟩, ?_, ?_⟩
  · show (s.cursor.skip 1).rest.length < _
    rw [hskip, h.rest]
    exact Nat.lt_succ_self _
  · show (if decide (ks = []) then k.column :: s.columns else s.columns) = [0]
    rw [h.columns, hcol]
    rcases hks with rfl | rfl <;> rfl
  · exact List.forall_mem_cons.2 ⟨hlt, h.filled⟩
  · intro n hn
    have hn : Entry.place n ∈ Entry.token .value :: s.entries := hn
    rw [hes] at hn
    simp only [List.mem_cons, reduceCtorEq, false_or, Entry.place.injEq] at hn
    rcases hn with rfl | hn
    · exact hlt
    · exact Nat.lt_trans (hplaces n hn) hlt
  · show linearise ((k.place, decide (ks = [])) :: s.filled) (Entry.token .value :: s.entries).reverse
      = _
    have hold : linearise ((k.place, decide (ks = [])) :: s.filled) es.reverse = ts := by
      rw [linearise_cons fun m hm => Nat.ne_of_lt (hplaces m (List.mem_reverse.1 hm)), htokens]
    rw [hes]
    simp only [List.reverse_cons, linearise_append, hold, List.append_assoc]
    rcases hks with rfl | rfl <;> simp [linearise, opening]
  · show (s.cursor.skip 1).rest = w
    rw [hskip]
  · show (s.cursor.skip 1).column ≠ 0
    rw [hskip]
    exact Nat.succ_ne_zero _

/-! ## sequences -/

theorem Ready.dash (h : Ready s ('-' :: ' ' :: w) ts [0]) :
    ∃ t, Steps s t ∧ Inside t w (ts ++ [.dash]) [0] := by
  have hline : IsLine ('-' :: ' ' :: w) := isLine_cons (by decide)
  obtain ⟨u, hu, hat, hcol, hkey⟩ := h.prepare (.inr rfl) hline
  obtain ⟨ends, hr, -, -⟩ := h.line
  have hskip := Cursor.skip_one hat.rest
  have hmark : u.cursor.atMarker = false := by
    rw [Cursor.atMarker, hat.rest]
    exact Bool.and_false _
  have hopen : u.openBlock u.cursor.column .blockSequence = u := by
    have hdeeper : u.isDeeper u.cursor.column = false := by
      rw [isDeeper, hat.not_inFlow, hat.columns, hcol]
      rfl
    rw [openBlock, hdeeper]
    rfl
  have hmarked : u.openMarked .blockSequence = some u := by
    rw [openMarked, hat.not_inFlow, hkey, hopen]
    rfl
  have htoken : u.token '-' (' ' :: w) =
      some { addMark { u with candidate := none } 1 .dash with keyAllowed := true } := by
    have hdash : u.token '-' (' ' :: w) = u.dash := by
      simp [token, hmark, show startsGap (' ' :: w) = true from rfl]
    rw [hdash, Scanner.dash, hmarked]
    simp only [Option.bind_eq_bind, Option.bind_some, hat.dropCandidate]
    rfl
  refine ⟨_, Steps.single hu hat.rest htoken ?_, ((hat.drop.add .dash).move _ true), ?_, ?_⟩
  · show (u.cursor.skip 1).rest.length < _
    rw [hskip, hr]
    simp only [List.length_append, List.length_cons]
    omega
  · show (u.cursor.skip 1).rest = _
    rw [hskip]
  · show (u.cursor.skip 1).column ≠ 0
    rw [hskip]
    exact Nat.succ_ne_zero _

/-- the state between the brackets of a sequence -/
structure InBrackets (s : Scanner) (w : List Char) (ts : List Token) (ks : List Nat) : Prop where
  rest : s.cursor.rest = ']' :: w
  column : s.cursor.column ≠ 0
  candidate : s.candidate = none
  outer : ∃ x, s.outer = [x] ∧ ∀ k ∈ x, k.required = false
  holds : Holds { s with outer := [] } ts ks

theorem Inside.bracket (h : Inside s ('[' :: ']' :: w) ts [0]) :
    ∃ t, Steps s t ∧ InBrackets t w (ts ++ [.flowSequence]) [0] := by
  have hline : IsLine ('[' :: ']' :: w) := isLine_cons (by decide)
  refine h.token (.inr rfl) hline fun u hat hcol => ?_
  obtain ⟨v, hv, hholds, hcursor⟩ := hat.reserve (by simpa using Ne.symm hcol)
  have hskip := Cursor.skip_one (c := v.cursor) (by rw [hcursor, hat.rest])
  have htoken : u.token '[' (']' :: w) = some { v.addMark 1 .flowSequence with
      candidate := none, outer := v.candidate :: v.outer, keyAllowed := true } := by
    have hopen : u.token '[' (']' :: w) = u.openFlow .flowSequence := by
      simp [Scanner.token, Cursor.atMarker_of_column hcol]
    rw [hopen, openFlow, hv]
    rfl
  refine ⟨_, _, _, hat.rest, htoken, ?_, ?_, ?_, rfl, ⟨v.candidate, ?_, hholds.optional⟩, ?_⟩
  · show (v.cursor.skip 1).rest.length ≤ _
    rw [hskip]
    exact Nat.le_succ _
  · show (v.cursor.skip 1).rest = _
    rw [hskip]
  · show (v.cursor.skip 1).column ≠ 0
    rw [hskip]
    exact Nat.succ_ne_zero _
  · show v.candidate :: v.outer = _
    rw [hholds.block]
  · have hadd := (hholds.drop.add .flowSequence).move (v.cursor.skip 1) true
    exact ⟨rfl, fun k hk => absurd hk (Option.not_mem_none k), hadd.columns, hadd.filled,
      hadd.placed, hadd.tokens⟩

theorem InBrackets.prepare (h : InBrackets s w ts ks) : ∃ x, (∀ k ∈ x, k.required = false) ∧
    s.prepare = some { s with outer := [x] } := by
  have hline : IsLine (']' :: w) := isLine_cons (by decide)
  have hsame := skipGap_stay (s := s) s.cursor.rest.length (by rwa [h.rest])
  obtain ⟨y, hy, hoptional⟩ := h.outer
  obtain ⟨x, hx, hoptional'⟩ := exists_refresh hoptional s.cursor
  refine ⟨x, hoptional', ?_⟩
  have hforget : s.forgetStale = some { s with outer := [x] } := by
    have hmap : [y].mapM (refresh s.cursor) = some [x] := by
      simp [List.mapM_cons, hx]
    have hnone : refresh s.cursor s.candidate = some s.candidate := by
      rw [h.candidate]
      rfl
    rw [forgetStale, hnone, hy, hmap]
    rfl
  rw [Scanner.prepare, hsame, hforget]
  rfl

theorem InBrackets.close (h : InBrackets s (ends ++ text) ts ks) (he : ∀ b ∈ ends, IsLineEnd b)
    (hends : ends ≠ []) : ∃ t, Steps s t ∧ Ready t text (ts ++ [.flowSequenceEnd]) ks := by
  obtain ⟨x, hx, hprepare⟩ := h.prepare
  have hskip := Cursor.skip_one h.rest
  have htoken : token { s with outer := [x] } ']' (ends ++ text) =
      some { s.addMark 1 .flowSequenceEnd with
        candidate := x, outer := [], keyAllowed := false } := by
    have hclose : token { s with outer := [x] } ']' (ends ++ text) =
        closeFlow { s with outer := [x] } .flowSequenceEnd := by
      simp [token, Cursor.atMarker_of_column h.column]
    have hdrop : dropCandidate { s with outer := [x] } = some { s with outer := [x] } := by
      simp [dropCandidate, h.candidate]
    rw [hclose, closeFlow, hdrop]
    rfl
  have hadd := (h.holds.add .flowSequenceEnd).move (s.cursor.skip 1) false
  refine ⟨_, Steps.single hprepare h.rest htoken ?_,
    ⟨rfl, hx, hadd.columns, hadd.filled, hadd.placed, hadd.tokens⟩, ends, ?_, he,
    fun hnil => absurd hnil hends⟩
  · show (s.cursor.skip 1).rest.length < _
    rw [hskip, h.rest]
    exact Nat.lt_succ_self _
  · show (s.cursor.skip 1).rest = _
    rw [hskip]

/-! ## ends -/

theorem Holds.closeBlocks_none (h : Holds s ts ks) (hks : ks = [] ∨ ks = [0]) :
    Holds (s.closeBlocks none) (ts ++ ks.map fun _ => .blockEnd) [] ∧
      (s.closeBlocks none).cursor = s.cursor := by
  rw [closeBlocks, h.not_inFlow, if_neg (by decide), h.columns]
  rcases hks with rfl | rfl
  · rw [List.map_nil, List.append_nil]
    exact ⟨⟨h.block, h.optional, rfl, h.filled, h.placed, h.tokens⟩, rfl⟩
  · have hend := h.add .blockEnd
    exact ⟨⟨hend.block, hend.optional, rfl, hend.filled, hend.placed, hend.tokens⟩, rfl⟩

theorem Ready.mark (h : Ready s ('.' :: '.' :: '.' :: (ends ++ text)) ts ks) (hks : ks = [] ∨ ks = [0])
    (he : ∀ b ∈ ends, IsLineEnd b) (hends : ends ≠ []) : ∃ t, Steps s t ∧
      Ready t text (ts ++ (ks.map fun _ => .blockEnd) ++ [.documentEnd]) [] := by
  have hline : IsLine ('.' :: '.' :: '.' :: (ends ++ text)) := isLine_cons (by decide)
  obtain ⟨u, hu, hat, hcol, -⟩ := h.prepare hks hline
  obtain ⟨breaks, hr, -, -⟩ := h.line
  obtain ⟨hclosed, hcursor⟩ := hat.closeBlocks_none hks
  have hdots : (u.closeBlocks none).cursor.rest = ['.', '.', '.'] ++ (ends ++ text) := by
    rw [hcursor, hat.rest]
    rfl
  have hskip := Cursor.skip_append hdots (k := 3) rfl
  have hmark : u.cursor.atMarker = true := by
    rw [Cursor.atMarker, hat.rest, hcol]
    exact startsGap_ends he hends
  have htoken : u.token '.' ('.' :: '.' :: (ends ++ text)) =
      some { addMark { u.closeBlocks none with candidate := none } 3 .documentEnd with
        keyAllowed := false } := by
    have hdoc : u.token '.' ('.' :: '.' :: (ends ++ text)) = u.documentMark .documentEnd := by
      simp [token, hmark]
    rw [hdoc, documentMark, hclosed.dropCandidate]
    rfl
  refine ⟨_, Steps.single hu hat.rest htoken ?_, (hclosed.drop.add .documentEnd).move _ false, ends,
    ?_, he, fun hnil => absurd hnil hends⟩
  · show ((u.closeBlocks none).cursor.skip 3).rest.length < _
    rw [hskip, hr]
    simp only [List.length_append, List.length_cons]
    omega
  · show ((u.closeBlocks none).cursor.skip 3).rest = _
    rw [hskip]

theorem Ready.finish (h : Ready s [] ts ks) (hks : ks = [] ∨ ks = [0]) (fuel : Nat) :
    ∃ t, run (fuel + 1) s = some t ∧ t.tokens = ts ++ ks.map fun _ => .blockEnd := by
  obtain ⟨u, hu, hat, -⟩ := h.prepare hks nofun
  obtain ⟨hclosed, -⟩ := hat.closeBlocks_none hks
  refine ⟨_, ?_, hclosed.drop.tokens⟩
  rw [run_succ, hu, Option.bind_some, hat.rest]
  exact hclosed.dropCandidate

end Scanner

/-! ## lines -/

open Scanner

variable {style : Style} {v : String} {cs extra text : List Char} {ts : List Token} {ks : List Nat}
  {s : Scanner}

theorem getLast?_blockFrom (hne : cs ≠ []) (broken : Bool) :
    (blockFrom broken cs).getLast? = cs.getLast? := by
  induction cs generalizing broken with
  | nil => exact absurd rfl hne
  | cons c cs ih =>
    by_cases hnil : cs = []
    · rw [hnil, blockFrom]
      split
      · rfl
      · simp [blockFrom]
    · have hlast (b : Bool) : (c :: blockFrom b cs).getLast? = (c :: cs).getLast? := by
        rw [List.getLast?_cons, List.getLast?_cons, ih hnil b]
      rw [blockFrom]
      split
      · exact hlast true
      · rw [List.getLast?_append, hlast false, List.getLast?_cons]
        rfl

/-- of the styles, only a block ends its line -/
theorem any_getLast?_scalarText (hw : IsWritten style v.toList) :
    (scalarText style v).getLast?.any isBreak =
      (decide (style = .literal) && v.toList.getLast?.any isBreak) := by
  cases style with
  | plain =>
    rw [scalarText, List.getLast?_eq_some_getLast hw.2]
    simpa using hw.1.unbroken _ (List.getLast_mem hw.2)
  | singleQuoted =>
    rw [scalarText, singleText, List.getLast?_append]
    rfl
  | doubleQuoted =>
    rw [scalarText, doubleText, List.getLast?_append]
    rfl
  | literal =>
    have hb := getLast?_blockFrom hw.2 true
    rw [List.getLast?_eq_some_getLast hw.2] at hb
    rw [scalarText, literalText, List.getLast?_append, List.getLast?_cons, hb,
      List.getLast?_eq_some_getLast hw.2]
    rfl
  | folded => exact hw.elim

theorem scalarText_ne_nil (hw : IsWritten style v.toList) : scalarText style v ≠ [] := by
  cases style with
  | plain => exact hw.2
  | singleQuoted | doubleQuoted | literal => nofun
  | folded => exact hw.elim

/-- the breaks behind a scalar, with some that follow its line -/
theorem exists_ends (hw : IsWritten style v.toList) {extra : List Char} (hx : ∀ b ∈ extra, IsLineEnd b)
    (hkept : style = .literal → keepsBreaks v.toList = true → extra = []) (front : List Char) :
    ∃ ends, endLine (front ++ scalarText style v) ++ extra = front ++ (scalarText style v ++ ends) ∧
      (∀ b ∈ ends, IsLineEnd b) ∧ Fits style v.toList ends := by
  have hlast : (front ++ scalarText style v).getLast?.any isBreak =
      (decide (style = .literal) && v.toList.getLast?.any isBreak) := by
    rw [← any_getLast?_scalarText hw, List.getLast?_append,
      List.getLast?_eq_some_getLast (scalarText_ne_nil hw)]
    rfl
  by_cases hends : style = .literal ∧ v.toList.getLast?.any isBreak = true
  · obtain ⟨rfl, hb⟩ := hends
    refine ⟨extra, ?_, hx, ⟨hkept rfl, fun hno => ?_⟩⟩
    · rw [endLine, hlast, if_pos (by simpa using hb), List.append_assoc]
    · rw [hb] at hno
      cases hno
  · refine ⟨'\n' :: extra, ?_, List.forall_mem_cons.2 ⟨.inl rfl, hx⟩, ?_⟩
    · rw [endLine, hlast, if_neg (by simpa using hends)]
      simp only [List.append_assoc, List.singleton_append]
    · cases style with
      | literal =>
        refine ⟨fun hkeep => ?_, fun _ => nofun⟩
        exact absurd (Scalar.any_getLast?_of_keepsBreaks hkeep) fun hb => hends ⟨rfl, hb⟩
      | plain | singleQuoted | doubleQuoted | folded => nofun

inductive IsItem : Node → Prop
  | scalar {style : Style} {v : String} (h : IsWritten style v.toList) : IsItem (.scalar style none v)

inductive IsValue : Node → Prop
  | item {n : Node} (h : IsItem n) : IsValue n
  | sequence {items : List Node} (h : ∀ n ∈ items, IsItem n) : IsValue (.sequence items)

def itemTokens : Node → List Token
  | .scalar style _ v => [.dash, .scalar style v]
  | _ => []

def valueTokens : Node → List Token
  | .scalar style _ v => [.scalar style v]
  | .sequence [] => [.flowSequence, .flowSequenceEnd]
  | .sequence items => items.flatMap itemTokens
  | _ => []

theorem isLine_items {items : List Node} (hi : ∀ n ∈ items, IsItem n) (ht : IsLine text) :
    IsLine (items.flatMap Node.itemText ++ text) := by
  cases items with
  | nil => exact ht
  | cons n items =>
    obtain ⟨hw⟩ := hi n List.mem_cons_self
    rw [List.flatMap_cons, Node.itemText, endLine]
    rintro c hc
    have hdash : c = '-' := by
      split at hc
      · exact (Option.some.inj hc).symm
      · exact (Option.some.inj hc).symm
    rw [hdash]
    decide

theorem Scanner.Ready.items {items : List Node} (h : Ready s (items.flatMap Node.itemText ++ text) ts [0])
    (hi : ∀ n ∈ items, IsItem n) (ht : IsLine text) :
    ∃ t, Steps s t ∧ Ready t text (ts ++ items.flatMap itemTokens) [0] := by
  induction items generalizing s ts with
  | nil =>
    rw [List.flatMap_nil, List.append_nil]
    exact ⟨s, Steps.refl s, h⟩
  | cons n items ih =>
    rw [List.forall_mem_cons] at hi
    obtain ⟨⟨hw⟩, hi⟩ := hi
    rename_i style v
    obtain ⟨ends, heq, he, hf⟩ := exists_ends hw (List.forall_mem_nil _) (fun _ _ => rfl) ['-', ' ']
    rw [List.append_nil] at heq
    have htext : (Node.scalar style none v :: items).flatMap Node.itemText ++ text =
        '-' :: ' ' :: (scalarText style v ++ (ends ++ (items.flatMap Node.itemText ++ text))) := by
      rw [List.flatMap_cons, Node.itemText]
      show endLine (['-', ' '] ++ scalarText style v) ++ _ ++ _ = _
      rw [heq]
      simp only [List.append_assoc, List.cons_append, List.nil_append]
    rw [htext] at h
    obtain ⟨t, hst, hinside⟩ := h.dash
    obtain ⟨u, htu, hready⟩ := hinside.scalar hw he hf (isLine_items hi ht)
    obtain ⟨x, hux, hx⟩ := ih hready hi
    refine ⟨x, (hst.trans htu).trans hux, ?_⟩
    simpa [itemTokens] using hx

/-- what may stand between the value of a member and the next line: breaks behind a scalar that does
not keep them -/
structure Extra (n : Node) (extra : List Char) : Prop where
  breaks : ∀ b ∈ extra, IsLineEnd b
  closed : extra ≠ [] → ∃ style v, n = .scalar style none v ∧
    (style = .literal → keepsBreaks v.toList = false)

theorem startsGap_valueText {n : Node} (hv : IsValue n) (text : List Char) :
    startsGap (n.valueText ++ text) = true := by
  cases hv with
  | item h =>
    obtain ⟨hw⟩ := h
    rw [Node.valueText, endLine]
    split <;> rfl
  | sequence h => rename_i items; cases items <;> rfl

theorem Scanner.Holds.value {n : Node} (h : Holds s ts [0]) (hv : IsValue n) (hx : Extra n extra)
    (hr : s.cursor.rest = n.valueText ++ (extra ++ text)) (hcol : s.cursor.column ≠ 0)
    (ht : IsLine text) : ∃ t, Steps s t ∧ Ready t text (ts ++ valueTokens n) [0] := by
  cases hv with
  | item hi =>
    obtain ⟨hw⟩ := hi
    rename_i style v
    have hkept (hl : style = .literal) (hk : keepsBreaks v.toList = true) : extra = [] := by
      refine Classical.byContradiction fun hne => ?_
      obtain ⟨style', v', heq, hno⟩ := hx.closed hne
      cases heq
      rw [hno hl] at hk
      cases hk
    obtain ⟨ends, heq, he, hf⟩ := exists_ends hw hx.breaks hkept [' ']
    have hrest : s.cursor.rest = ' ' :: (scalarText style v ++ (ends ++ text)) := by
      rw [hr, Node.valueText, ← List.append_assoc]
      show endLine ([' '] ++ scalarText style v) ++ _ ++ _ = _
      rw [heq]
      simp only [List.append_assoc, List.cons_append, List.nil_append]
    exact Inside.scalar ⟨h, hrest, hcol⟩ hw he hf ht
  | sequence hi =>
    rename_i items
    have hnil : extra = [] := by
      refine Classical.byContradiction fun hne => ?_
      obtain ⟨style, v, heq, -⟩ := hx.closed hne
      cases heq
    rw [hnil, List.nil_append] at hr
    cases items with
    | nil =>
      have hbreak : ∀ b ∈ ['\n'], IsLineEnd b := by
        rintro _ (_ | ⟨_, ⟨⟩⟩)
        exact .inl rfl
      obtain ⟨t, hst, hin⟩ := Inside.bracket ⟨h, hr, hcol⟩
      obtain ⟨u, htu, hready⟩ := hin.close hbreak nofun
      refine ⟨u, hst.trans htu, ?_⟩
      rwa [List.append_assoc] at hready
    | cons n items =>
      have hready : Ready s ((n :: items).flatMap Node.itemText ++ text) ts [0] :=
        ⟨h, ['\n'], hr, by rintro _ (_ | ⟨_, ⟨⟩⟩); exact .inl rfl, nofun⟩
      exact hready.items hi ht

/-! ## members -/

structure IsMember (m : String × Node) : Prop where
  name : IsName m.1.toList
  short : m.1.toList.length ≤ 1024
  value : IsValue m.2

def memberText (m : String × Node) : List Char := m.1.toList ++ ':' :: m.2.valueText

def memberTokens (m : String × Node) : List Token :=
  [.key, .scalar .plain m.1, .value] ++ valueTokens m.2

theorem Scanner.Ready.member {m : String × Node} (h : Ready s (memberText m ++ (extra ++ text)) ts ks)
    (hks : ks = [] ∨ ks = [0]) (hm : IsMember m) (hx : Extra m.2 extra) (ht : IsLine text) :
    ∃ t, Steps s t ∧ Ready t text (ts ++ opening ks ++ memberTokens m) [0] := by
  rw [memberText, List.append_assoc, List.cons_append] at h
  have hgap := startsGap_valueText hm.value (extra ++ text)
  obtain ⟨t, hst, hcolon⟩ := h.name hks hm.name hm.short hgap
  obtain ⟨u, htu, hholds, hrest, hcol⟩ := hcolon.value hks hgap
  obtain ⟨x, hux, hready⟩ := hholds.value hm.value hx hrest hcol ht
  refine ⟨x, (hst.trans htu).trans hux, ?_⟩
  rwa [memberTokens, ← List.append_assoc]

theorem isLine_members {ms : List (String × Node)} (hms : ∀ m ∈ ms, IsMember m) (hne : ms ≠ []) :
    IsLine (ms.flatMap memberText ++ text) := by
  obtain ⟨m, ms, rfl⟩ := List.exists_cons_of_ne_nil hne
  rw [List.flatMap_cons, memberText, List.append_assoc, List.append_assoc]
  exact isLine_name (hms m List.mem_cons_self).name

theorem Scanner.Ready.members {ms : List (String × Node)}
    (h : Ready s (ms.flatMap memberText ++ (extra ++ text)) ts ks) (hks : ks = [] ∨ ks = [0])
    (hms : ∀ m ∈ ms, IsMember m) (hne : ms ≠ [])
    (hx : ∀ m ∈ ms.getLast?, Extra m.2 extra) (ht : IsLine text) :
    ∃ t, Steps s t ∧ Ready t text (ts ++ opening ks ++ ms.flatMap memberTokens) [0] := by
  induction ms generalizing s ts ks with
  | nil => exact absurd rfl hne
  | cons m ms ih =>
    rw [List.forall_mem_cons] at hms
    rw [List.flatMap_cons, List.append_assoc] at h
    by_cases hnil : ms = []
    · subst hnil
      rw [List.flatMap_nil, List.nil_append] at h
      obtain ⟨t, hst, hready⟩ := h.member hks hms.1 (hx m rfl) ht
      exact ⟨t, hst, by simpa using hready⟩
    · have hnone : Extra m.2 [] := ⟨nofun, fun hno => absurd rfl hno⟩
      have hfirst : Ready s
          (memberText m ++ ([] ++ (ms.flatMap memberText ++ (extra ++ text)))) ts ks := h
      obtain ⟨t, hst, hready⟩ := hfirst.member hks hms.1 hnone (isLine_members hms.2 hnil)
      obtain ⟨u, htu, hall⟩ := ih hready (.inr rfl) hms.2 hnil
        (by rwa [List.getLast?_cons_of_ne_nil hnil] at hx)
      refine ⟨u, hst.trans htu, ?_⟩
      simpa [opening] using hall

/-! ## whole texts -/

theorem isAllowed_of_isPrintable {c : Char} (h : isPrintable c = true) : isAllowed c = true := by
  simp only [isPrintable, Bool.or_eq_true, Bool.and_eq_true, decide_eq_true_eq] at h
  simp only [isAllowed, Bool.or_eq_true, Bool.and_eq_true, decide_eq_true_eq]
  omega

theorem isAllowed_hexText {k n : Nat} : ∀ c ∈ hexText k n, isAllowed c = true := by
  have hdigit : ∀ d < 16, isAllowed (Nat.digitChar d).toUpper = true := by decide
  rw [hexText]
  refine List.forall_mem_append.2 ⟨fun c hc => ?_, fun c hc => ?_⟩
  · rw [List.eq_of_mem_replicate hc]
    rfl
  · obtain ⟨e, he, rfl⟩ := List.mem_map.1 hc
    obtain ⟨d, hd, rfl⟩ := Text.exists_of_mem_toDigits (by decide) he
    exact hdigit d hd

theorem isAllowed_escaped (c : Char) : ∀ d ∈ escaped c, isAllowed d = true := by
  rw [escaped]
  split
  · next h =>
    simp only [Bool.and_eq_true] at h
    simpa using isAllowed_of_isPrintable h.1.1.1
  · split
    · next l hl =>
      have hletter : isAllowed l = true := by
        unfold escapeLetter? at hl
        split at hl
        case h_16 => cases hl
        all_goals
          obtain rfl := Option.some.inj hl
          decide
      simpa using ⟨rfl, hletter⟩
    · have hnumber {k n : Nat} {x : Char} (hx : isAllowed x = true) :
          ∀ d ∈ '\\' :: x :: hexText k n, isAllowed d = true :=
        List.forall_mem_cons.2 ⟨rfl, List.forall_mem_cons.2 ⟨hx, isAllowed_hexText⟩⟩
      dsimp only
      split
      · exact hnumber rfl
      · split <;> exact hnumber rfl

theorem isAllowed_blockMarks (cs : List Char) : ∀ c ∈ blockMarks cs, isAllowed c = true := by
  rw [blockMarks]
  refine List.forall_mem_append.2 ⟨?_, ?_⟩
  · split <;> simp
    rfl
  · split
    · simp
      rfl
    · split <;> simp
      rfl

theorem isAllowed_scalarText (hw : IsWritten style v.toList) :
    ∀ c ∈ scalarText style v, isAllowed c = true := by
  cases style with
  | plain => exact fun c hc => isAllowed_of_isPrintable (hw.1.printable c hc)
  | singleQuoted =>
    have hprint : ∀ c ∈ v.toList, isAllowed c = true := fun c hc =>
      isAllowed_of_isPrintable (hw.printable c hc)
    have hfrom := forall_mem_singleFrom (p := fun c => isAllowed c = true) rfl rfl hprint false
    exact List.forall_mem_append.2 ⟨List.forall_mem_cons.2 ⟨rfl, hfrom⟩, by simp; rfl⟩
  | doubleQuoted =>
    have hfrom : ∀ c ∈ v.toList.flatMap escaped, isAllowed c = true := by
      intro c hc
      obtain ⟨d, -, hd⟩ := List.mem_flatMap.1 hc
      exact isAllowed_escaped d c hd
    exact List.forall_mem_append.2 ⟨List.forall_mem_cons.2 ⟨rfl, hfrom⟩, by simp; rfl⟩
  | literal =>
    have hprint : ∀ c ∈ v.toList, isAllowed c = true := fun c hc =>
      isAllowed_of_isPrintable (hw.1 c hc)
    have hfrom := forall_mem_blockFrom (p := fun c => isAllowed c = true) rfl hprint true
    exact List.forall_mem_append.2 ⟨List.forall_mem_cons.2 ⟨rfl, isAllowed_blockMarks _⟩,
      List.forall_mem_cons.2 ⟨rfl, hfrom⟩⟩
  | folded => exact hw.elim

theorem isAllowed_endLine (h : ∀ c ∈ cs, isAllowed c = true) :
    ∀ c ∈ endLine cs, isAllowed c = true := by
  rw [endLine]
  split
  · exact h
  · exact List.forall_mem_append.2 ⟨h, by simp; rfl⟩

theorem isAllowed_valueText {n : Node} (hv : IsValue n) : ∀ c ∈ n.valueText, isAllowed c = true := by
  cases hv with
  | item hi =>
    obtain ⟨hw⟩ := hi
    exact isAllowed_endLine (List.forall_mem_cons.2 ⟨rfl, isAllowed_scalarText hw⟩)
  | sequence hi =>
    rename_i items
    cases items with
    | nil =>
      have hall : " []\n".toList.all isAllowed = true := by decide
      exact List.all_eq_true.1 hall
    | cons n items =>
      refine List.forall_mem_cons.2 ⟨rfl, fun c hc => ?_⟩
      obtain ⟨m, hm, hc⟩ := List.mem_flatMap.1 hc
      obtain ⟨hw⟩ := hi m hm
      exact isAllowed_endLine (List.forall_mem_cons.2 ⟨rfl, List.forall_mem_cons.2
        ⟨rfl, isAllowed_scalarText hw⟩⟩) c hc

theorem isAllowed_memberText {m : String × Node} (hm : IsMember m) :
    ∀ c ∈ memberText m, isAllowed c = true := by
  refine List.forall_mem_append.2 ⟨fun c hc => ?_, List.forall_mem_cons.2 ⟨rfl,
    isAllowed_valueText hm.value⟩⟩
  exact isAllowed_of_isPrintable (hm.name.isPrintable hc)

theorem tokens?_of_steps {u : Scanner} (hall : ∀ c ∈ text, isAllowed c = true)
    (hs : Steps { cursor := { rest := text } } u) (hu : Ready u [] ts ks) (hks : ks = [] ∨ ks = [0]) :
    tokens? text = some (ts ++ ks.map fun _ => .blockEnd) := by
  obtain ⟨k, hk, hrun⟩ := hs
  obtain ⟨t, ht, htokens⟩ := hu.finish hks (text.length - k)
  have hk : k + u.cursor.rest.length ≤ text.length := hk
  have hfuel : text.length - k + 1 + k = text.length + 1 := by omega
  have hfull := hrun (text.length - k + 1)
  rw [hfuel, ht] at hfull
  rw [tokens?, if_pos (List.all_eq_true.2 hall), hfull, ← htokens]
  rfl

theorem tokens?_record {ms : List (String × Node)} (hms : ∀ m ∈ ms, IsMember m) (hne : ms ≠ [])
    {extra : List Char} (hx : ∀ b ∈ extra, IsLineEnd b)
    (hlast : ∀ m ∈ ms.getLast?, m.2.endsOpen = false → Extra m.2 extra) :
    tokens? ((recordText ms).toList ++ extra) = some (.blockMapping :: ms.flatMap memberTokens ++
      .blockEnd :: if ms.getLast?.any (·.2.endsOpen) then [.documentEnd] else []) := by
  have hlines : ∀ c ∈ ms.flatMap memberText, isAllowed c = true := by
    intro c hc
    obtain ⟨m, hm, hc⟩ := List.mem_flatMap.1 hc
    exact isAllowed_memberText (hms m hm) c hc
  have hextra : ∀ c ∈ extra, isAllowed c = true := by
    intro c hc
    rcases hx c hc with rfl | rfl | rfl <;> rfl
  obtain ⟨m, hm⟩ : ∃ m, ms.getLast? = some m := ⟨_, List.getLast?_eq_some_getLast hne⟩
  have hstart (w : List Char) : Ready { cursor := { rest := w } } w [] [] :=
    ⟨⟨rfl, nofun, rfl, nofun, nofun, rfl⟩, [], rfl, nofun, fun _ => ⟨rfl, rfl⟩⟩
  rw [recordText, String.toList_ofList, hm, Option.any_some]
  show tokens? ((ms.flatMap memberText ++ _) ++ extra) = _
  by_cases hopen : m.2.endsOpen = true
  · have hdots : IsLine ('.' :: '.' :: '.' :: (('\n' :: extra) ++ [])) := isLine_cons (by decide)
    have hends : ∀ b ∈ '\n' :: extra, IsLineEnd b := List.forall_mem_cons.2 ⟨.inl rfl, hx⟩
    have htext : ms.flatMap memberText ++ "...\n".toList ++ extra =
        ms.flatMap memberText ++ ([] ++ '.' :: '.' :: '.' :: (('\n' :: extra) ++ [])) := by
      simp
    have hdots' : "...\n".toList.all isAllowed = true := by decide
    have hdotted : ∀ c ∈ ms.flatMap memberText ++ "...\n".toList ++ extra, isAllowed c = true :=
      List.forall_mem_append.2 ⟨List.forall_mem_append.2
        ⟨hlines, List.all_eq_true.1 hdots'⟩, hextra⟩
    rw [if_pos hopen, if_pos hopen]
    rw [htext] at hdotted ⊢
    obtain ⟨t, hst, ht⟩ := (hstart _).members (.inl rfl) hms hne
      (fun _ _ => ⟨List.forall_mem_nil _, fun hno => absurd rfl hno⟩) hdots
    obtain ⟨u, htu, hu⟩ := ht.mark (.inr rfl) hends nofun
    rw [tokens?_of_steps hdotted (hst.trans htu) hu (.inl rfl)]
    simp [opening]
  · have hclosed : m.2.endsOpen = false := by simpa using hopen
    have htext : ms.flatMap memberText ++ [] ++ extra = ms.flatMap memberText ++ (extra ++ []) := by
      simp
    have hplain : ∀ c ∈ ms.flatMap memberText ++ [] ++ extra, isAllowed c = true := by
      rw [List.append_nil]
      exact List.forall_mem_append.2 ⟨hlines, hextra⟩
    have hend : IsLine [] := nofun
    rw [if_neg hopen, if_neg hopen]
    rw [htext] at hplain ⊢
    obtain ⟨t, hst, ht⟩ := (hstart _).members (.inl rfl) hms hne
      (fun n hn => hlast n hn (by rw [hm] at hn; cases hn; exact hclosed)) hend
    rw [tokens?_of_steps hplain hst ht (.inr rfl)]
    simp [opening]

end HeaderMiner.Yaml
