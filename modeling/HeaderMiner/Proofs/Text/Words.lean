import Mathlib.Data.List.TakeWhile
import HeaderMiner.Text.Blank
/-!
# The words of a text

A text holds words if it is made of them, in their order, with blanks around them and at least one
blank between any two (`Holds`).  Every text holds exactly one list of words, which is what it is cut
into (`words_eq_iff`), and cutting off the blanks at its ends leaves it the same words
(`words_trim`).
-/

namespace HeaderMiner.Text

def IsBlank (cs : List Char) : Prop := ∀ c ∈ cs, isBlank c = true

/-- at least one character, and no blank among them -/
def IsWord (cs : List Char) : Prop := cs ≠ [] ∧ ∀ c ∈ cs, isBlank c = false

instance (cs : List Char) : Decidable (IsBlank cs) :=
  inferInstanceAs (Decidable (∀ c ∈ cs, isBlank c = true))

/-- the words that a text holds -/
inductive Holds : List (List Char) → List Char → Prop
  | nil {a : List Char} (blank : IsBlank a) : Holds [] a
  | cons {a w cs : List Char} {ws : List (List Char)} (blank : IsBlank a) (word : IsWord w)
      (apart : ∀ c ∈ cs.head?, isBlank c = true) (rest : Holds ws cs) :
      Holds (w :: ws) (a ++ (w ++ cs))

variable {a b cs w : List Char} {ws : List (List Char)}

theorem isBlank_append (ha : IsBlank a) (hb : IsBlank b) : IsBlank (a ++ b) := by
  intro c hc
  rcases List.mem_append.1 hc with hc | hc
  · exact ha c hc
  · exact hb c hc

theorem IsBlank.reverse (h : IsBlank a) : IsBlank a.reverse :=
  fun c hc => h c (List.mem_reverse.1 hc)

/-! ## blanks at the ends -/

theorem Holds.blank_append (h : Holds ws cs) (ha : IsBlank a) : Holds ws (a ++ cs) := by
  cases h with
  | nil blank => exact .nil (isBlank_append ha blank)
  | cons blank word apart rest =>
    rw [← List.append_assoc]
    exact .cons (isBlank_append ha blank) word apart rest

theorem Holds.append_blank (h : Holds ws cs) (ha : IsBlank a) : Holds ws (cs ++ a) := by
  induction h with
  | nil blank => exact .nil (isBlank_append blank ha)
  | @cons b w cs ws blank word apart rest ih =>
    rw [List.append_assoc, List.append_assoc]
    refine .cons blank word ?_ ih
    cases cs with
    | nil => exact fun c hc => ha c (List.mem_of_mem_head? hc)
    | cons d cs => exact apart

theorem exists_trim (cs : List Char) : ∃ a b, IsBlank a ∧ IsBlank b ∧ cs = a ++ (trim cs ++ b) := by
  have hstart (cs : List Char) : IsBlank (cs.takeWhile isBlank) ∧
      cs = cs.takeWhile isBlank ++ trimStart cs :=
    ⟨fun c hc => List.mem_takeWhile_imp hc, List.takeWhile_append_dropWhile.symm⟩
  obtain ⟨ha, hcs⟩ := hstart cs
  obtain ⟨hb, hrest⟩ := hstart (trimStart cs).reverse
  refine ⟨_, _, ha, hb.reverse, ?_⟩
  have h : trim cs ++ ((trimStart cs).reverse.takeWhile isBlank).reverse = trimStart cs := by
    rw [trim, ← List.reverse_append, ← hrest, List.reverse_reverse]
  rw [h, ← hcs]

/-! ## cutting into words -/

theorem wordsFrom_append (current : List Char) (hw : ∀ c ∈ w, isBlank c = false) :
    wordsFrom current (w ++ cs) = wordsFrom (w.reverse ++ current) cs := by
  induction w generalizing current with
  | nil => rfl
  | cons c w ih =>
    obtain ⟨hc, hw⟩ := List.forall_mem_cons.1 hw
    rw [List.cons_append, wordsFrom, if_neg (by rw [hc]; exact Bool.false_ne_true), ih _ hw,
      List.reverse_cons, List.append_assoc]
    rfl

theorem words_blank_append (ha : IsBlank a) : words (a ++ cs) = words cs := by
  induction a with
  | nil => rfl
  | cons c a ih =>
    obtain ⟨hc, ha⟩ := List.forall_mem_cons.1 ha
    show wordsFrom [] (c :: (a ++ cs)) = _
    rw [wordsFrom, if_pos hc]
    exact ih ha

/-- a word is over where the text is, or where a blank comes -/
theorem wordsFrom_of_head {current : List Char} (hc : current ≠ [])
    (hcs : ∀ c ∈ cs.head?, isBlank c = true) :
    wordsFrom current cs = current.reverse :: words cs := by
  have he : ¬ current.isEmpty = true := mt List.isEmpty_iff.1 hc
  cases cs with
  | nil => rw [wordsFrom_nil, if_neg he]; rfl
  | cons c cs =>
    have hb : isBlank c = true := hcs c rfl
    rw [wordsFrom, if_pos hb, if_neg he, words, wordsFrom, if_pos hb]
    rfl

theorem isWord_reverse {current : List Char} (h : ¬ current.isEmpty = true)
    (hc : ∀ c ∈ current, isBlank c = false) : IsWord current.reverse :=
  ⟨mt List.reverse_eq_nil_iff.1 (mt List.isEmpty_iff.2 h), fun c hm => hc c (List.mem_reverse.1 hm)⟩

theorem holds_wordsFrom (current cs : List Char) (hc : ∀ c ∈ current, isBlank c = false) :
    Holds (wordsFrom current cs) (current.reverse ++ cs) := by
  -- along the text: a blank ends the word that has been begun, and any other character goes on with it
  induction cs generalizing current with
  | nil =>
    rw [wordsFrom_nil]
    split
    · next he =>
      rw [List.isEmpty_iff.1 he]
      exact .nil nofun
    · next he => exact .cons (a := []) nofun (isWord_reverse he hc) nofun (.nil nofun)
  | cons c cs ih =>
    rw [wordsFrom]
    split
    · next hb =>
      have hrest : Holds (wordsFrom [] cs) ([c] ++ cs) :=
        (ih [] nofun).blank_append (List.forall_mem_singleton.2 hb)
      split
      · next he =>
        rw [List.isEmpty_iff.1 he]
        exact hrest
      · next he =>
        refine .cons (a := []) nofun (isWord_reverse he hc) ?_ hrest
        rintro _ ⟨⟩
        exact hb
    · next hb =>
      have h := ih (c :: current) (List.forall_mem_cons.2 ⟨Bool.eq_false_iff.2 hb, hc⟩)
      rwa [List.reverse_cons, List.append_assoc] at h

/-- a text is cut into the words that it holds -/
theorem words_eq_iff : words cs = ws ↔ Holds ws cs := by
  constructor
  · rintro rfl
    exact holds_wordsFrom [] cs nofun
  · intro h
    induction h with
    | @nil a blank =>
      have h : words (a ++ []) = [] := words_blank_append blank
      rwa [List.append_nil] at h
    | @cons a w cs ws blank word apart rest ih =>
      have hne : w.reverse ++ [] ≠ [] := by
        rw [List.append_nil]
        exact mt List.reverse_eq_nil_iff.1 word.1
      rw [words_blank_append blank, words, wordsFrom_append [] word.2, wordsFrom_of_head hne apart, ih,
        List.append_nil, List.reverse_reverse]

theorem words_trim (cs : List Char) : words (trim cs) = words cs := by
  obtain ⟨a, b, ha, hb, hcs⟩ := exists_trim cs
  have h : Holds (words (trim cs)) (trim cs) := words_eq_iff.1 rfl
  have hall : Holds (words (trim cs)) (a ++ (trim cs ++ b)) := (h.append_blank hb).blank_append ha
  rw [← hcs] at hall
  exact (words_eq_iff.2 hall).symm

theorem words_eq_nil_iff : words cs = [] ↔ IsBlank cs := by
  rw [words_eq_iff]
  constructor
  · rintro ⟨blank⟩
    exact blank
  · exact .nil

theorem words_eq_pair_iff {v w : List Char} :
    words cs = [v, w] ↔ ∃ a b c, IsBlank a ∧ IsWord v ∧ IsBlank b ∧ b ≠ [] ∧ IsWord w ∧ IsBlank c ∧
      cs = a ++ (v ++ (b ++ (w ++ c))) := by
  rw [words_eq_iff]
  constructor
  · intro h
    cases h with
    | cons ha hv apart rest =>
      cases rest with
      | @cons b _ _ _ hb hw _ rest =>
        cases rest with
        | nil hc =>
          refine ⟨_, _, _, ha, hv, hb, ?_, hw, hc, rfl⟩
          -- without a blank the second word would go on with the first
          rintro rfl
          obtain ⟨d, w, rfl⟩ := List.exists_cons_of_ne_nil hw.1
          have hd := hw.2 d List.mem_cons_self
          rw [apart d rfl] at hd
          cases hd
  · rintro ⟨a, b, c, ha, hv, hb, hne, hw, hc, rfl⟩
    refine .cons ha hv ?_ (.cons hb hw (fun d hd => hc d (List.mem_of_mem_head? hd)) (.nil hc))
    obtain ⟨d, b, rfl⟩ := List.exists_cons_of_ne_nil hne
    rintro _ ⟨⟩
    exact hb d List.mem_cons_self

end HeaderMiner.Text
