import HeaderMiner.Header.View
import HeaderMiner.Target.Json
import HeaderMiner.Proofs.Text.Decimal
import HeaderMiner.Proofs.Work.Acceptance
import HeaderMiner.Proofs.Work.Answer
/-!
# What texts and views tell

The text of a header is read exactly where it is made of the digits of 256 bytes with the guard among
them, and that of a target where it is made of the digits of 32 bytes; what was read is written as the
same text in lower case.

A view shows each field from its own window of the written form (`view_eq`), in a way that tells the
bytes of the window (`Field.shown_inj`), and the windows leave out the guard only (`covered`); so a
header is known from its view, and from the lines of its JSON text.
-/

namespace HeaderMiner

/-! ## numbers -/

theorem leNat_injective {as bs : List UInt8} (hl : as.length = bs.length)
    (h : leNat as = leNat bs) : as = bs := by
  rw [← leBytes_leNat as, h, hl, leBytes_leNat]

namespace Header

/-! ## fields -/

/-- a field in the written form: its name, its window, and whether it is shown as a number -/
structure Field where
  name : String
  offset : Nat
  size : Nat
  isNumber : Bool
deriving DecidableEq

namespace Field

def window (f : Field) (bs : List UInt8) : List UInt8 := (bs.drop f.offset).take f.size

def shown (f : Field) (bs : List UInt8) : Shown :=
  if f.isNumber then .number (leNat (f.window bs)) else .hex (Hex.encode (f.window bs))

def Covers (f : Field) (i : Nat) : Prop := f.offset ≤ i ∧ i < f.offset + f.size

instance (f : Field) (i : Nat) : Decidable (f.Covers i) := by
  unfold Covers
  infer_instance

end Field

def fields : List Field :=
  [⟨"nonce", 0, 4, true⟩, ⟨"time", 4, 6, true⟩, ⟨"padding", 12, 20, false⟩,
   ⟨"prevBlock", 32, 32, false⟩, ⟨"treeRoot", 64, 32, false⟩, ⟨"maskHash", 96, 32, false⟩,
   ⟨"extraNonce", 128, 24, false⟩, ⟨"reservedRoot", 152, 32, false⟩,
   ⟨"witnessRoot", 184, 32, false⟩, ⟨"merkleRoot", 216, 32, false⟩, ⟨"version", 248, 4, true⟩,
   ⟨"bits", 252, 4, true⟩]

variable {bs : List UInt8} {f : Field} {g h : Header}

theorem toNat_word (bs : List UInt8) (i : Nat) :
    (word bs i).toNat = leNat ((bs.drop i).take 4) := by
  have hlt := leNat_lt ((bs.drop i).take 4)
  have hpow : 256 ^ ((bs.drop i).take 4).length ≤ 256 ^ 4 :=
    Nat.pow_le_pow_right (by decide) (List.length_take_le ..)
  rw [word, UInt32.toNat_ofNat', Nat.mod_eq_of_lt (by omega)]

theorem view_eq (h : Header) : h.view = fields.map fun f => (f.name, f.shown h.toBytes) := by
  have hfields (bs : List UInt8) (hl : bs.length = 256) :
      (fieldsOf bs hl).view = fields.map fun f => (f.name, f.shown bs) := by
    simp only [view, fieldsOf, toNat_word]
    rfl
  rw [← hfields h.toBytes h.length_toBytes, fieldsOf_toBytes]

theorem Field.shown_inj (f : Field) (g h : Header) :
    f.shown g.toBytes = f.shown h.toBytes ↔
      ∀ i, f.Covers i → g.toBytes[i]? = h.toBytes[i]? := by
  have hl : (f.window g.toBytes).length = (f.window h.toBytes).length := by
    rw [window, window, List.length_take, List.length_take, List.length_drop, List.length_drop,
      length_toBytes, length_toBytes]
  have hw : f.shown g.toBytes = f.shown h.toBytes ↔ f.window g.toBytes = f.window h.toBytes := by
    constructor
    · intro hs
      unfold shown at hs
      by_cases hn : f.isNumber = true
      · rw [if_pos hn, if_pos hn] at hs
        exact leNat_injective hl (Shown.number.inj hs)
      · rw [if_neg hn, if_neg hn] at hs
        exact Hex.encode_injective (Shown.hex.inj hs)
    · intro hs
      rw [shown, hs, shown]
  rw [hw, window, window, window_eq_iff]
  exact ⟨fun hall i hi => hall i hi.1 hi.2, fun hall i hi hj => hall i ⟨hi, hj⟩⟩

/-- a byte is in one window, or it is in the guard and in none -/
theorem covered : ∀ i < 256,
    (fields.filter (·.Covers i)).length = if i = 10 ∨ i = 11 then 0 else 1 := by decide +kernel

theorem exists_covers {i : Nat} (hi : i < 256) (hg : ¬(i = 10 ∨ i = 11)) :
    ∃ f ∈ fields, f.Covers i := by
  have hc := covered i hi
  rw [if_neg hg] at hc
  obtain ⟨f, hf⟩ := List.exists_mem_of_length_pos (Nat.lt_of_lt_of_eq Nat.zero_lt_one hc.symm)
  obtain ⟨hm, hcov⟩ := List.mem_filter.1 hf
  exact ⟨f, hm, of_decide_eq_true hcov⟩

theorem toBytes_injective (hb : g.toBytes = h.toBytes) : g = h := by
  have hg := g.ofBytes_toBytes
  rw [hb, h.ofBytes_toBytes] at hg
  exact (Except.ok.inj hg).symm

/-- a header is known from what is shown of its fields -/
theorem eq_of_shown (hs : ∀ f ∈ fields, f.shown g.toBytes = f.shown h.toBytes) : g = h := by
  apply toBytes_injective
  apply List.ext_getElem?
  intro i
  by_cases hi : i < 256
  · by_cases hguard : i = 10 ∨ i = 11
    · have hg := g.isGuarded_toBytes
      have hh := h.isGuarded_toBytes
      rcases hguard with rfl | rfl
      · rw [hg.1, hh.1]
      · rw [hg.2, hh.2]
    · obtain ⟨f, hf, hc⟩ := exists_covers hi hguard
      exact (f.shown_inj g h).1 (hs f hf) i hc
  · have hn (h : Header) : h.toBytes[i]? = none := by
      apply List.getElem?_eq_none
      rw [length_toBytes]
      exact Nat.not_lt.1 hi
    rw [hn, hn]

theorem view_injective (hv : g.view = h.view) : g = h := by
  rw [view_eq, view_eq, List.map_inj_left] at hv
  exact eq_of_shown fun f hf => (Prod.mk.inj (hv f hf)).2

/-! ## lines -/

/-- a list up to a separator that is not inside is known, and so is what follows -/
theorem append_separator_inj {α : Type} {b : α} {xs ys us vs : List α} (hx : b ∉ xs) (hy : b ∉ ys)
    (h : xs ++ b :: us = ys ++ b :: vs) : xs = ys ∧ us = vs := by
  induction xs generalizing ys with
  | nil =>
    cases ys with
    | nil => exact ⟨rfl, (List.cons.inj h).2⟩
    | cons y ys => exact absurd (List.cons.inj h).1 (List.ne_of_not_mem_cons hy)
  | cons x xs ih =>
    cases ys with
    | nil => exact absurd (List.cons.inj h).1.symm (List.ne_of_not_mem_cons hx)
    | cons y ys =>
      obtain ⟨rfl, ht⟩ := List.cons.inj h
      obtain ⟨rfl, hu⟩ := ih (List.not_mem_of_not_mem_cons hx) (List.not_mem_of_not_mem_cons hy) ht
      exact ⟨rfl, hu⟩

theorem join_injective {as bs : List (List Char)} {us vs : List Char} (hl : as.length = bs.length)
    (ha : ∀ a ∈ as, '\n' ∉ a) (hb : ∀ b ∈ bs, '\n' ∉ b)
    (h : [',', '\n'].intercalate as ++ '\n' :: us = [',', '\n'].intercalate bs ++ '\n' :: vs) :
    as = bs := by
  induction as generalizing bs with
  | nil => exact (List.length_eq_zero_iff.1 hl.symm).symm
  | cons a as ih =>
    cases bs with
    | nil => cases hl
    | cons b bs =>
      rw [List.forall_mem_cons] at ha hb
      cases as with
      | nil =>
        obtain rfl := List.length_eq_zero_iff.1 (Nat.succ.inj hl).symm
        rw [List.intercalate_singleton, List.intercalate_singleton] at h
        rw [(append_separator_inj ha.1 hb.1 h).1]
      | cons a' as =>
        cases bs with
        | nil => cases hl
        | cons b' bs =>
          rw [List.intercalate_cons_cons, List.intercalate_cons_cons] at h
          have hcomma {l : List Char} (hn : '\n' ∉ l) : '\n' ∉ l ++ [','] := by simp [hn]
          have hassoc (l m w : List Char) :
              l ++ [',', '\n'] ++ m ++ w = (l ++ [',']) ++ '\n' :: (m ++ w) := by simp
          rw [hassoc, hassoc] at h
          obtain ⟨hab, hrest⟩ := append_separator_inj (hcomma ha.1) (hcomma hb.1) h
          rw [List.append_cancel_right hab, ih (Nat.succ.inj hl) ha.2 hb.2 hrest]

def line (f : String × Shown) : String := "  \"" ++ f.1 ++ "\": " ++ f.2.text

theorem isDigit_of_mem_toString {n : Nat} {c : Char} (hc : c ∈ (toString n).toList) :
    c.isDigit = true := by
  rw [Nat.toString_eq_repr, Nat.toList_repr] at hc
  exact Nat.isDigit_of_mem_toDigits (by decide) (by decide) hc

theorem Shown.toList_text_hex (s : String) :
    (Shown.hex s).text.toList = '"' :: (s.toList ++ ['"']) := by simp [Shown.text]

theorem Shown.text_injective {x y : Shown} (h : x.text = y.text) : x = y := by
  have hne (n : Nat) (s : String) : (Shown.number n).text ≠ (Shown.hex s).text := by
    intro he
    have hc : '"' ∈ (toString n).toList := by
      rw [show toString n = (Shown.hex s).text from he, toList_text_hex]
      exact List.mem_cons_self
    exact absurd (isDigit_of_mem_toString hc) (by decide)
  cases x with
  | number n =>
    cases y with
    | number m =>
      have hn (k : Nat) : Nat.ofDigitChars 10 (toString k).toList 0 = k := by
        rw [Nat.toString_eq_repr, Nat.toList_repr, Nat.ofDigitChars_ten_toDigits]
      have hnm : toString n = toString m := h
      rw [← hn n, hnm, hn]
    | hex t => exact absurd h (hne n t)
  | hex s =>
    cases y with
    | number m => exact absurd h.symm (hne m s)
    | hex t =>
      have hl := congrArg String.toList h
      rw [toList_text_hex, toList_text_hex] at hl
      rw [String.toList_inj.1 (List.append_cancel_right (List.cons.inj hl).2)]

theorem not_mem_line {f : Field} (hf : f ∈ fields) (bs : List UInt8) :
    '\n' ∉ (line (f.name, f.shown bs)).toList := by
  have hname : ∀ f ∈ fields, '\n' ∉ ("  \"" ++ f.name ++ "\": ").toList := by decide
  have htext : '\n' ∉ (f.shown bs).text.toList := by
    intro hc
    unfold Field.shown at hc
    split at hc
    · exact absurd (isDigit_of_mem_toString hc) (by decide)
    · have hm : '\n' ∈ (Hex.encode (f.window bs)).toList := by
        rw [Shown.toList_text_hex] at hc
        simpa using hc
      exact absurd (Hex.isDigit_of_mem_encode hm) (by decide)
  rw [line, String.toList_append, List.mem_append, not_or]
  exact ⟨hname f hf, htext⟩

theorem toJsonText_injective (hj : g.toJsonText = h.toJsonText) : g = h := by
  have hjoin (h : Header) : h.toJsonText.toList = '\x7b' :: '\n' :: ([',', '\n'].intercalate
      (fields.map fun f => (line (f.name, f.shown h.toBytes)).toList) ++ ['\n', '\x7d']) := by
    have hlines : h.toJsonText = "\x7b\n" ++ String.intercalate ",\n"
        (fields.map fun f => line (f.name, f.shown h.toBytes)) ++ "\n\x7d" := by
      rw [toJsonText, view_eq, List.map_map]
      rfl
    rw [hlines, String.toList_append, String.toList_append, String.toList_intercalate, List.map_map]
    rfl
  have hbreak (h : Header) : ∀ l ∈ fields.map fun f => (line (f.name, f.shown h.toBytes)).toList,
      '\n' ∉ l := by
    intro l hl
    obtain ⟨f, hf, rfl⟩ := List.mem_map.1 hl
    exact not_mem_line hf _
  have hl := congrArg String.toList hj
  rw [hjoin, hjoin] at hl
  have hmap := join_injective (by simp) (hbreak g) (hbreak h) (List.cons.inj (List.cons.inj hl).2).2
  rw [List.map_inj_left] at hmap
  apply eq_of_shown
  intro f hf
  have hsplit (x : Shown) : (line (f.name, x)).toList =
      ("  \"" ++ f.name ++ "\": ").toList ++ x.text.toList := String.toList_append
  have hline := hmap f hf
  rw [hsplit, hsplit] at hline
  exact Shown.text_injective (String.toList_inj.1 (List.append_cancel_left hline))

/-! ## texts -/

/-- what becomes of a text: its digits are looked at first, and then the guard among them -/
theorem ofHex_outcomes (s : String) :
    ((∃ h, ofHex s = .ok h) ↔
      Hex.IsText size s ∧ ∃ raw, Hex.decode s = .ok raw ∧ IsGuarded raw) ∧
    ((∃ why, ofHex s = .error (.badHeaderSize why)) ↔ ¬Hex.IsText size s) ∧
    ((∃ why, ofHex s = .error (.badTime why)) ↔
      Hex.IsText size s ∧ ∃ raw, Hex.decode s = .ok raw ∧ ¬IsGuarded raw) := by
  rcases ofHex_cases s with ⟨ht, why, he⟩ | ⟨raw, hl, hd, hg, why, he⟩ | ⟨h, hd, hok⟩
  · simp [he, ht]
  · have ht := Hex.exists_decode_iff.1 ⟨raw, hl, hd⟩
    simp [he, ht, hd, hg]
  · have ht := Hex.exists_decode_iff.1 ⟨_, h.length_toBytes, hd⟩
    simp [hok, ht, hd, h.isGuarded_toBytes]

theorem toHex_of_ofHex {s : String} (hok : ofHex s = .ok h) : h.toHex = s.toLower :=
  (Hex.decode_eq_ok_iff.1 (ofHex_eq_ok_iff.1 hok)).symm

end Header

namespace Target

theorem ofHex_outcomes (s : String) :
    ((∃ t, ofHex s = .ok t) ↔ Hex.IsText 32 s) ∧
    ((∃ why, ofHex s = .error (.badTargetSize why)) ↔ ¬Hex.IsText 32 s) := by
  rcases ofHex_cases s with ⟨ht, why, he⟩ | ⟨t, hd, hok⟩
  · simp [he, ht]
  · have ht := Hex.exists_decode_iff.1 ⟨_, t.octets.length_toList, hd⟩
    simp [hok, ht]

theorem toHex_of_ofHex {s : String} {t : Target} (hok : ofHex s = .ok t) : t.toHex = s.toLower :=
  (Hex.decode_eq_ok_iff.1 (ofHex_eq_ok_iff.1 hok)).symm

theorem ofJson_eq_ok_iff {v : Json} {t : Target} :
    ofJson v = .ok t ↔ ∃ s, v = .string s ∧ ofHex s = .ok t := by
  constructor
  · intro hok
    cases v with
    | string s =>
      refine ⟨s, rfl, ?_⟩
      have hm : (ofHex s).mapError Error.message = .ok t := hok
      cases ho : ofHex s with
      | error e =>
        rw [ho] at hm
        cases hm
      | ok u =>
        rw [ho] at hm
        cases hm
        rfl
    | _ => cases hok
  · rintro ⟨s, rfl, ho⟩
    show (ofHex s).mapError Error.message = .ok t
    rw [ho]
    rfl

end Target

/-- the texts of headers and targets are read and written without loss, and the views of headers
show every byte but the guard in one field each -/
theorem codecs_lossless :
    (∀ s : String,
      ((∃ h, Header.ofHex s = .ok h) ↔ (s.utf8ByteSize = 512 ∧ ∀ c ∈ s.toList, Hex.IsDigit c) ∧
        ∃ raw, Hex.decode s = .ok raw ∧ raw[10]? = some 0 ∧ raw[11]? = some 0) ∧
      ((∃ why, Header.ofHex s = .error (.badHeaderSize why)) ↔
        ¬(s.utf8ByteSize = 512 ∧ ∀ c ∈ s.toList, Hex.IsDigit c)) ∧
      ((∃ why, Header.ofHex s = .error (.badTime why)) ↔
        (s.utf8ByteSize = 512 ∧ ∀ c ∈ s.toList, Hex.IsDigit c) ∧
        ∃ raw, Hex.decode s = .ok raw ∧ ¬(raw[10]? = some 0 ∧ raw[11]? = some 0)) ∧
      ∀ h, Header.ofHex s = .ok h → h.toHex = s.toLower) ∧
    (∀ s : String,
      ((∃ t, Target.ofHex s = .ok t) ↔ s.utf8ByteSize = 64 ∧ ∀ c ∈ s.toList, Hex.IsDigit c) ∧
      ((∃ why, Target.ofHex s = .error (.badTargetSize why)) ↔
        ¬(s.utf8ByteSize = 64 ∧ ∀ c ∈ s.toList, Hex.IsDigit c)) ∧
      ∀ t, Target.ofHex s = .ok t → t.toHex = s.toLower) ∧
    (∀ (v : Json) (t : Target),
      Target.ofJson v = .ok t ↔ ∃ s, v = .string s ∧ Target.ofHex s = .ok t) ∧
    (∀ t : Target, Target.ofHex t.toHex = .ok t ∧ Target.ofJson t.toJson = .ok t) ∧
    (∀ h : Header, Header.ofHex h.toHex = .ok h ∧
      h.view = Header.fields.map fun f => (f.name, f.shown h.toBytes)) ∧
    (∀ i < 256, (Header.fields.filter (·.Covers i)).length = if i = 10 ∨ i = 11 then 0 else 1) ∧
    ∀ g h : Header,
      (∀ f : Header.Field, f.shown g.toBytes = f.shown h.toBytes ↔
        ∀ i, f.Covers i → g.toBytes[i]? = h.toBytes[i]?) ∧
      (g.view = h.view → g = h) ∧ (g.toJsonText = h.toJsonText → g = h) := by
  refine ⟨fun s => ?_, fun s => ?_, fun _ _ => Target.ofJson_eq_ok_iff, fun t => ?_,
    fun h => ⟨h.ofHex_toHex, h.view_eq⟩, Header.covered, fun g h => ?_⟩
  · have ht : Hex.IsText Header.size s ↔ s.utf8ByteSize = 512 ∧ ∀ c ∈ s.toList, Hex.IsDigit c :=
      Hex.isText_iff
    obtain ⟨hok, hsize, htime⟩ := Header.ofHex_outcomes s
    rw [ht] at hok hsize htime
    exact ⟨hok, hsize, htime, fun h => Header.toHex_of_ofHex⟩
  · have ht : Hex.IsText 32 s ↔ s.utf8ByteSize = 64 ∧ ∀ c ∈ s.toList, Hex.IsDigit c :=
      Hex.isText_iff
    obtain ⟨hok, hsize⟩ := Target.ofHex_outcomes s
    rw [ht] at hok hsize
    exact ⟨hok, hsize, fun t => Target.toHex_of_ofHex⟩
  · exact ⟨t.ofHex_toHex, Target.ofJson_eq_ok_iff.2 ⟨_, rfl, t.ofHex_toHex⟩⟩
  · exact ⟨fun f => f.shown_inj g h, Header.view_injective, Header.toJsonText_injective⟩

end HeaderMiner
