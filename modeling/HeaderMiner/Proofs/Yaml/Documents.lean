import HeaderMiner.Proofs.Yaml.Records
/-!
# Records read back

A text is written in a style that holds it (`isWritten_styleOf`), and the tokens of a record are those
of a mapping of its members.  So the text of a record, with or without more breaks behind it, is read as
that mapping again (`parse?_record`).
-/

namespace HeaderMiner.Yaml

open Scanner

variable {style : Style} {v : String} {items done : List Node} {rest : List Token} {n : Node}
  {x : Node.Context} {fuel : Nat} {place : Node.Place}

namespace Node

/-! ## nodes of tokens -/

theorem takeNode_scalar (place : Place) (fuel : Nat) :
    takeNode place (fuel + 1) x (.scalar style v :: rest) = some (.scalar style none v, x, rest) := by
  cases place <;> rfl

theorem takeDashes_items (hi : ∀ n ∈ items, IsItem n) (hrest : rest.head? ≠ some .dash)
    (hfuel : items.length < fuel) :
    takeDashes fuel x done (items.flatMap itemTokens ++ rest) =
      some (.sequence (done.reverse ++ items), x, rest) := by
  induction items generalizing fuel done with
  | nil =>
    obtain ⟨fuel, rfl⟩ : ∃ k, fuel = k + 1 := ⟨fuel - 1, by simp at hfuel; omega⟩
    rw [List.flatMap_nil, List.nil_append, List.append_nil, takeDashes]
    rintro r rfl
    exact hrest rfl
  | cons n items ih =>
    rw [List.forall_mem_cons] at hi
    obtain ⟨⟨hw⟩, hi⟩ := hi
    rename_i style v
    rw [List.length_cons] at hfuel
    obtain ⟨fuel, rfl⟩ : ∃ k, fuel = k + 2 := ⟨fuel - 2, by omega⟩
    have hstep : takeDashes (fuel + 2) x done
        (.dash :: .scalar style v :: (items.flatMap itemTokens ++ rest)) =
        takeDashes (fuel + 1) x (.scalar style none v :: done) (items.flatMap itemTokens ++ rest) := by
      rw [takeDashes, takeNode_scalar]
      · rfl
      all_goals nofun
    have hnext : takeDashes (fuel + 1) x (.scalar style none v :: done)
        (items.flatMap itemTokens ++ rest) =
        some (.sequence ((.scalar style none v :: done).reverse ++ items), x, rest) :=
      ih hi (by omega)
    rw [List.reverse_cons, List.append_assoc] at hnext
    exact hstep.trans hnext

theorem length_itemTokens (hi : ∀ n ∈ items, IsItem n) :
    items.length ≤ (items.flatMap itemTokens).length := by
  induction items with
  | nil => exact Nat.zero_le _
  | cons n items ih =>
    rw [List.forall_mem_cons] at hi
    obtain ⟨⟨-⟩, hi⟩ := hi
    have hle := ih hi
    simp only [List.flatMap_cons, itemTokens, List.length_append, List.length_cons, List.length_nil]
    omega

theorem takeNode_value (hv : IsValue n) (hrest : rest.head? ≠ some .dash)
    (hfuel : (valueTokens n).length + 1 < fuel) :
    takeNode .member fuel x (valueTokens n ++ rest) = some (n, x, rest) := by
  obtain ⟨fuel, rfl⟩ : ∃ k, fuel = k + 2 := ⟨fuel - 2, by omega⟩
  cases hv with
  | item h =>
    obtain ⟨-⟩ := h
    exact takeNode_scalar ..
  | sequence hi =>
    rename_i items
    cases items with
    | nil => rfl
    | cons m items =>
      have hlen : (m :: items).length < fuel + 1 := by
        have hle := length_itemTokens hi
        rw [valueTokens] at hfuel
        · omega
        · nofun
      have htake : takeDashes (fuel + 1) x [] ((m :: items).flatMap itemTokens ++ rest) =
          some (.sequence ([] ++ m :: items), x, rest) := takeDashes_items hi hrest hlen
      obtain ⟨⟨hw⟩, -⟩ := List.forall_mem_cons.1 hi
      rename_i style v
      show (takeDashes (fuel + 1) x [] (((.scalar style none v) :: items).flatMap itemTokens ++ rest)).map
        _ = _
      rw [htake]
      rfl

theorem not_endsValue (hv : IsValue n) (rest : List Token) :
    endsValue (valueTokens n ++ rest) = false := by
  cases hv with
  | item h =>
    obtain ⟨-⟩ := h
    rfl
  | sequence hi =>
    rename_i items
    cases items with
    | nil => rfl
    | cons n items =>
      obtain ⟨⟨-⟩, -⟩ := List.forall_mem_cons.1 hi
      rfl

theorem takeMembers_record {ms : List (String × Node)} {before : List (Node × Node)}
    (hms : ∀ m ∈ ms, IsMember m) (hfuel : (ms.flatMap memberTokens).length < fuel) :
    takeMembers fuel x before (ms.flatMap memberTokens ++ .blockEnd :: rest) =
      some (.mapping (before.reverse ++ ms.map fun m => (.scalar .plain none m.1, m.2)), x, rest) := by
  induction ms generalizing fuel before with
  | nil =>
    obtain ⟨fuel, rfl⟩ : ∃ k, fuel = k + 1 := ⟨fuel - 1, by simp at hfuel; omega⟩
    rw [List.map_nil, List.append_nil]
    rfl
  | cons m ms ih =>
    rw [List.forall_mem_cons] at hms
    rw [List.flatMap_cons, memberTokens, List.length_append, List.length_append] at hfuel
    obtain ⟨fuel, rfl⟩ : ∃ k, fuel = k + 3 := ⟨fuel - 3, by simp at hfuel; omega⟩
    have hends : (ms.flatMap memberTokens ++ .blockEnd :: rest).head? ≠ some .dash := by
      intro hdash
      cases ms <;> cases hdash
    simp only [List.length_cons, List.length_nil] at hfuel
    have hvalue : takeNode .member (fuel + 2) x
        (valueTokens m.2 ++ (ms.flatMap memberTokens ++ .blockEnd :: rest)) =
        some (m.2, x, ms.flatMap memberTokens ++ .blockEnd :: rest) :=
      takeNode_value hms.1.value hends (by omega)
    have hpresent := not_endsValue hms.1.value (ms.flatMap memberTokens ++ .blockEnd :: rest)
    have hnext : takeMembers (fuel + 2) x ((.scalar .plain none m.1, m.2) :: before)
        (ms.flatMap memberTokens ++ .blockEnd :: rest) =
        some (.mapping (((.scalar .plain none m.1, m.2) :: before).reverse ++
          ms.map fun m => (.scalar .plain none m.1, m.2)), x, rest) :=
      ih hms.2 (by omega)
    rw [List.reverse_cons, List.append_assoc] at hnext
    have hstep : takeMembers (fuel + 3) x before
        (.key :: .scalar .plain m.1 :: .value ::
          (valueTokens m.2 ++ (ms.flatMap memberTokens ++ .blockEnd :: rest))) =
        takeMembers (fuel + 2) x ((.scalar .plain none m.1, m.2) :: before)
          (ms.flatMap memberTokens ++ .blockEnd :: rest) := by
      have hkey : endsValue (.scalar .plain m.1 :: .value ::
          (valueTokens m.2 ++ (ms.flatMap memberTokens ++ .blockEnd :: rest))) = false := rfl
      rw [takeMembers]
      simp only [hkey, takeNode_scalar, hpresent, hvalue, Bool.false_eq_true, if_false,
        Option.bind_eq_bind, Option.bind_some]
    rw [List.flatMap_cons, memberTokens]
    simp only [List.append_assoc, List.cons_append, List.nil_append]
    exact hstep.trans hnext

theorem ofTokens?_record {ms : List (String × Node)} (hms : ∀ m ∈ ms, IsMember m)
    {stop : List Token} (hstop : stop = [] ∨ stop = [.documentEnd]) :
    ofTokens? (.blockMapping :: ms.flatMap memberTokens ++ .blockEnd :: stop) =
      some (.mapping (ms.map fun m => (.scalar .plain none m.1, m.2))) := by
  have hnode (x : Context) {fuel : Nat} (hfuel : (ms.flatMap memberTokens).length < fuel) :
      takeNode .block (fuel + 1) x (.blockMapping :: (ms.flatMap memberTokens ++ .blockEnd :: stop)) =
        some (.mapping (ms.map fun m => (.scalar .plain none m.1, m.2)), x, stop) := by
    show (takeMembers fuel x [] (ms.flatMap memberTokens ++ .blockEnd :: stop)).map _ = _
    rw [takeMembers_record hms hfuel]
    rfl
  have hstops : (stop.dropWhile (· = .documentEnd)).isEmpty = true := by
    rcases hstop with rfl | rfl <;> rfl
  have hfuel : (ms.flatMap memberTokens).length <
      3 * (.blockMapping :: ms.flatMap memberTokens ++ .blockEnd :: stop).length + 2 := by
    simp only [List.length_append, List.length_cons]
    omega
  rw [ofTokens?, if_neg (by simp)]
  simp only [Option.bind_eq_bind, List.cons_append, takeDirectives, Option.bind_some] at hfuel ⊢
  rw [if_neg (by decide), hnode _ hfuel, Option.bind_some]
  exact if_pos hstops

theorem parse?_record {ms : List (String × Node)} (hms : ∀ m ∈ ms, IsMember m) (hne : ms ≠ [])
    {extra : String} (hx : ∀ b ∈ extra.toList, IsLineEnd b)
    (hlast : ∀ m ∈ ms.getLast?, m.2.endsOpen = false → Extra m.2 extra.toList) :
    parse? (recordText ms ++ extra) =
      some (.mapping (ms.map fun m => (.scalar .plain none m.1, m.2))) := by
  rw [parse?, String.toList_append, tokens?_record hms hne hx hlast, Option.bind_some]
  apply ofTokens?_record hms
  split
  · exact .inr rfl
  · exact .inl rfl

end Node

/-! ## written nodes -/

/-- every text is written in a style that holds it -/
theorem isWritten_styleOf (v : String) : IsWritten (styleOf v) v.toList := by
  have hprintable (h : needsEscapes v.toList = false) : ∀ c ∈ v.toList, isPrintable c = true := by
    simp only [needsEscapes, Bool.or_eq_false_iff, List.any_eq_false] at h
    exact fun c hc => by simpa using h.1 c hc
  rw [styleOf]
  by_cases hn : v.toList.contains '\n' = true
  · rw [if_pos hn]
    by_cases hb : admitsBlock v.toList = true
    · rw [if_pos hb]
      have hno : needsEscapes v.toList = false := by
        simp only [admitsBlock, Bool.not_eq_true', Bool.or_eq_false_iff] at hb
        exact hb.1
      refine ⟨hprintable hno, fun hnil => ?_⟩
      rw [hnil] at hn
      cases hn
    · rw [if_neg hb]
      trivial
  · rw [if_neg hn]
    by_cases hp : (Plain.isTyped v || !admitsPlain v.toList) = true
    · rw [if_pos hp]
      by_cases hs : admitsSingle v.toList = true
      · rw [if_pos hs]
        exact isSingle_of_admitsSingle hs (by simpa using hn)
      · rw [if_neg hs]
        trivial
    · rw [if_neg hp]
      simp only [Bool.or_eq_true, not_or, Bool.not_eq_true, Bool.not_eq_false'] at hp
      refine ⟨isPlain_of_admitsPlain hp.2, fun hnil => ?_⟩
      have hempty : v = "" := String.toList_inj.1 hnil
      rw [hempty] at hp
      exact absurd hp.1 (by decide)

theorem isItem_text (v : String) : IsItem (.text v) := .scalar (isWritten_styleOf v)

theorem isItem_plain (hv : v.toList.all Char.isAlphanum = true) (hne : v.toList ≠ []) :
    IsItem (.plain v) :=
  .scalar ⟨isPlain_of_isAlphanum (List.all_eq_true.1 hv), hne⟩

theorem isItem_natural (n : Nat) : IsItem (.plain (toString n)) := by
  have htext : (toString n).toList = Nat.toDigits 10 n := Nat.toList_repr
  apply isItem_plain
  · rw [htext, List.all_eq_true]
    intro c hc
    rw [Char.isAlphanum, Nat.isDigit_of_mem_toDigits (by decide) (by decide) hc, Bool.or_true]
  · rw [htext]
    exact Nat.toDigits_ne_nil

end HeaderMiner.Yaml
