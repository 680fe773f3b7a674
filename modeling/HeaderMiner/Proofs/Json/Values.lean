import Mathlib.Algebra.Group.Int.Defs
import Mathlib.Data.String.Basic
import HeaderMiner.Json.Reader
/-!
# Values of JSON texts

Whatever text is read, its value is well formed (`wellFormed_of_parse`): integers fit 64 bits, and an
object has its members in the order of their keys, each key once.  The reader sorts the members as it
meets them (`isSorted_insert`), and the trees that it builds hold no scalars but those of the text.
-/

namespace HeaderMiner.Json

/-- whether members stand in the order of their keys, each key once -/
def IsSorted (members : List (String × Json)) : Prop := members.Pairwise fun a b => a.1 < b.1

/-- whether a value is one that a text can have -/
inductive WellFormed : Json → Prop
  | null : WellFormed .null
  | bool (b : Bool) : WellFormed (.bool b)
  | natural {n : Nat} (h : n < 2 ^ 64) : WellFormed (.natural n)
  | negative {n : Int} (h : -2 ^ 63 ≤ n) (h0 : n < 0) : WellFormed (.negative n)
  | double (x : Float) : WellFormed (.double x)
  | string (s : String) : WellFormed (.string s)
  | array {items : List Json} (h : ∀ v ∈ items, WellFormed v) : WellFormed (.array items)
  | object {members : List (String × Json)} (hs : IsSorted members)
      (h : ∀ m ∈ members, WellFormed m.2) : WellFormed (.object members)

/-! ## objects -/

variable {key : String} {value v : Json} {members : List (String × Json)}

theorem mem_of_lookup (h : lookup key members = some v) : (key, v) ∈ members := by
  induction members with
  | nil => cases h
  | cons m rest ih =>
    obtain ⟨k, x⟩ := m
    rw [lookup] at h
    split at h
    · next hk =>
      cases h
      rw [hk]
      exact List.mem_cons_self
    · exact List.mem_cons_of_mem _ (ih h)

theorem lookup_of_mem (hs : IsSorted members) (h : (key, v) ∈ members) :
    lookup key members = some v := by
  induction members with
  | nil => cases h
  | cons m rest ih =>
    obtain ⟨k, x⟩ := m
    obtain ⟨hfirst, hrest⟩ := List.pairwise_cons.1 hs
    rw [lookup]
    rcases List.mem_cons.1 h with hm | hm
    · cases hm
      exact if_pos rfl
    · have hk : k ≠ key := ne_of_lt (hfirst _ hm)
      rw [if_neg hk, ih hrest hm]

theorem mem_insert {m : String × Json} (h : m ∈ insert key value members) :
    m = (key, value) ∨ m ∈ members := by
  induction members with
  | nil => exact .inl (List.mem_singleton.1 h)
  | cons n rest ih =>
    obtain ⟨k, x⟩ := n
    rw [insert] at h
    split at h
    · rcases List.mem_cons.1 h with h | h
      · exact .inl h
      · exact .inr (List.mem_cons_of_mem _ h)
    · split at h
      · exact List.mem_cons.1 h
      · rcases List.mem_cons.1 h with h | h
        · exact .inr (h ▸ List.mem_cons_self)
        · exact (ih h).imp_right (List.mem_cons_of_mem _)

theorem isSorted_insert (hs : IsSorted members) : IsSorted (insert key value members) := by
  induction members with
  | nil => exact List.pairwise_singleton _ _
  | cons n rest ih =>
    obtain ⟨k, x⟩ := n
    obtain ⟨hfirst, hrest⟩ := List.pairwise_cons.1 hs
    rw [insert]
    split
    · next hk => exact List.pairwise_cons.2 ⟨fun m hm => hk ▸ hfirst m hm, hrest⟩
    · next hk =>
      split
      · next hlt =>
        refine List.pairwise_cons.2 ⟨fun m hm => ?_, hs⟩
        rcases List.mem_cons.1 hm with rfl | hm
        · exact hlt
        · exact lt_trans hlt (hfirst m hm)
      · next hge =>
        refine List.pairwise_cons.2 ⟨fun m hm => ?_, ih hrest⟩
        rcases mem_insert hm with rfl | hm
        · exact lt_of_le_of_ne (not_lt.1 hge) (Ne.symm hk)
        · exact hfirst m hm

theorem wellFormed_ofMembers (h : ∀ m ∈ members, WellFormed m.2) :
    (ofMembers members).WellFormed := by
  suffices hfold : ∀ acc, IsSorted acc → (∀ m ∈ acc, WellFormed m.2) →
      (Json.object (members.foldl (fun acc m => insert m.1 m.2 acc) acc)).WellFormed from
    hfold [] List.Pairwise.nil (by simp)
  induction members with
  | nil => exact fun acc hs hacc => .object hs hacc
  | cons n rest ih =>
    intro acc hs hacc
    rw [List.forall_mem_cons] at h
    refine ih h.2 _ (isSorted_insert hs) fun m hm => ?_
    rcases mem_insert hm with rfl | hm
    · exact h.1
    · exact hacc m hm

/-! ## numbers -/

theorem keepDigits_lt {kept : Nat} (h : kept < wordBound) (cs : List Char) :
    (keepDigits kept cs).1 < wordBound := by
  induction cs generalizing kept with
  | nil => exact h
  | cons c cs ih =>
    rw [keepDigits]
    split
    · next hlt => exact ih hlt
    · exact h

theorem wellFormed_integer (positive : Bool) {n : Nat} (h : n < 2 ^ 64) :
    (integer positive n).WellFormed := by
  unfold integer
  split
  · exact .natural h
  · split
    · exact .double _
    · next hn =>
      rw [not_or, not_lt] at hn
      refine .negative ?_ ?_
      · show -2 ^ 63 ≤ -(n : Int)
        omega
      · show -(n : Int) < 0
        omega

theorem wellFormed_of_value {positive : Bool} {l : Literal} (h : l.value? positive = some v) :
    v.WellFormed := by
  have hkept : (keepDigits 0 l.whole).1 < 2 ^ 64 := keepDigits_lt (by decide) _
  unfold Literal.value? at h
  dsimp only at h
  split at h
  · obtain ⟨f, -, rfl⟩ := Option.map_eq_some_iff.1 h
    exact .double _
  · split at h
    · cases h
      exact wellFormed_integer positive hkept
    · obtain ⟨f, -, rfl⟩ := Option.map_eq_some_iff.1 h
      exact .double _

/-- the number that decimal digits spell, behind a number already read -/
def spelled (n : Nat) (ds : List Char) : Nat := ds.foldl (fun n c => n * 10 + (c.toNat - 48)) n

theorem le_spelled (n : Nat) (ds : List Char) : n ≤ spelled n ds := by
  induction ds generalizing n with
  | nil => exact Nat.le_refl n
  | cons c ds ih =>
    have hn := ih (n * 10 + (c.toNat - 48))
    show n ≤ spelled (n * 10 + (c.toNat - 48)) ds
    omega

theorem keepDigits_eq_iff {k n : Nat} {ds : List Char} (hk : k < wordBound) :
    keepDigits k ds = (n, []) ↔ spelled k ds = n ∧ n < wordBound := by
  induction ds generalizing k with
  | nil =>
    rw [keepDigits, Prod.mk.injEq]
    constructor
    · rintro ⟨rfl, -⟩
      exact ⟨rfl, hk⟩
    · rintro ⟨rfl, -⟩
      exact ⟨rfl, rfl⟩
  | cons c ds ih =>
    show _ ↔ spelled (k * 10 + (c.toNat - 48)) ds = n ∧ n < wordBound
    rw [keepDigits]
    split
    · next hlt => exact ih hlt
    · next hge =>
      -- a digit is left out, and those behind it do not make the number smaller
      have hle := le_spelled (k * 10 + (c.toNat - 48)) ds
      simp only [Prod.mk.injEq, List.cons_ne_nil, and_false, false_iff]
      omega

/-- the natural numbers of a text are those below `2 ^ 64` with neither sign nor fraction nor exponent -/
theorem value?_eq_natural_iff {positive : Bool} {l : Literal} {n : Nat} :
    l.value? positive = some (.natural n) ↔
      positive = true ∧ l.fraction = none ∧ l.exponent = none ∧
        spelled 0 l.whole = n ∧ n < wordBound := by
  have hkept : keepDigits 0 l.whole = (n, []) ↔ spelled 0 l.whole = n ∧ n < wordBound :=
    keepDigits_eq_iff (by decide)
  unfold Literal.value?
  dsimp only
  cases hf : l.fraction with
  | some ds => simp
  | none =>
    cases he : l.exponent with
    | some e => simp
    | none =>
      rw [← hkept]
      rcases hd : keepDigits 0 l.whole with ⟨kept, left⟩
      cases left with
      | cons c left => simp
      | nil =>
        cases positive with
        | true => simp [integer]
        | false =>
          have hne : integer false kept ≠ .natural n := by
            unfold integer
            split
            · contradiction
            · split <;> nofun
          simp [hne]

/-! ## tokens -/

/-- whether a token is no scalar, or one of a value that a text can have -/
def Token.IsSound (t : Token) : Prop := ∀ v, t = .scalar (some v) → v.WellFormed

theorem isSound_literal {positive : Bool} {l : Literal} :
    (Token.scalar (l.value? positive)).IsSound := by
  intro v hv
  exact wellFormed_of_value (Token.scalar.inj hv)

theorem isSound_stringOf (ps : List Piece) : (Token.scalar (stringOf? ps)).IsSound := by
  intro v hv
  obtain ⟨cs, -, rfl⟩ := Option.map_eq_some_iff.1 (Token.scalar.inj hv)
  exact .string _

theorem isSound_token {c : Char} {rest r : List Char} {t : Token}
    (h : token c rest = some (t, r)) : t.IsSound := by
  have hword {v : Json} (hv : v.WellFormed) : (Token.scalar (some v)).IsSound := by
    intro _ he
    cases he
    exact hv
  unfold token at h
  split at h
  case h_7 =>
    obtain ⟨p, -, hp⟩ := Option.map_eq_some_iff.1 h
    cases hp
    exact isSound_stringOf _
  case h_8 =>
    obtain ⟨p, -, hp⟩ := Option.map_eq_some_iff.1 h
    cases hp
    exact isSound_literal
  case h_9 =>
    split at h <;> cases h
    exact hword .null
  case h_10 =>
    split at h <;> cases h
    exact hword (.bool true)
  case h_11 =>
    split at h <;> cases h
    exact hword (.bool false)
  case h_12 =>
    split at h
    · obtain ⟨p, -, hp⟩ := Option.map_eq_some_iff.1 h
      cases hp
      exact isSound_literal
    · cases h
  -- what is left are marks
  all_goals
    cases h
    intro _ he
    cases he

theorem isSound_tokens {fuel : Nat} {cs : List Char} {ts : List Token}
    (h : tokensWithin fuel cs = some ts) : ∀ t ∈ ts, t.IsSound := by
  induction fuel generalizing cs ts with
  | zero =>
    rw [tokensWithin] at h
    split at h
    · cases h
      simp
    · cases h
  | succ fuel ih =>
    rw [tokensWithin] at h
    split at h
    · cases h
      simp
    · next c rest _ =>
      obtain ⟨⟨t, r⟩, ht, h⟩ := Option.bind_eq_some_iff.1 h
      obtain ⟨ts', hts, h⟩ := Option.bind_eq_some_iff.1 h
      cases h
      rw [List.forall_mem_cons]
      exact ⟨isSound_token ht, ih hts⟩

/-! ## trees -/

/-- whether all scalars of a tree have values that a text can have, if they have any -/
inductive Tree.IsSound : Tree → Prop
  | scalar {v : Option Json} (h : ∀ x, v = some x → x.WellFormed) : IsSound (.scalar v)
  | array {items : List Tree} (h : ∀ t ∈ items, IsSound t) : IsSound (.array items)
  | object {members : List (String × Tree)} (h : ∀ m ∈ members, IsSound m.2) :
    IsSound (.object members)

def Frame.trees : Frame → List Tree
  | .array items => items
  | .object members _ => members.map Prod.snd

/-- whether all trees that a machine has built are sound -/
structure Machine.IsSound (m : Machine) : Prop where
  frames : ∀ f ∈ m.open_, ∀ t ∈ f.trees, t.IsSound
  result : ∀ t, m.want = .nothing t → t.IsSound

namespace Machine

variable {m next : Machine} {t : Token} {fs : List Frame}

theorem isSound_close {tree : Tree} (ht : tree.IsSound) (h : ∀ f ∈ fs, ∀ t ∈ f.trees, t.IsSound) :
    (close tree fs).IsSound := by
  cases fs with
  | nil =>
    refine ⟨h, ?_⟩
    rintro _ ⟨⟩
    exact ht
  | cons f fs =>
    obtain ⟨hf, hfs⟩ := List.forall_mem_cons.1 h
    cases f with
    | array items =>
      refine ⟨List.forall_mem_cons.2 ⟨List.forall_mem_cons.2 ⟨ht, hf⟩, hfs⟩, ?_⟩
      rintro _ ⟨⟩
    | object members key =>
      refine ⟨List.forall_mem_cons.2 ⟨List.forall_mem_cons.2 ⟨ht, hf⟩, hfs⟩, ?_⟩
      rintro _ ⟨⟩

/-- nothing is finished while the machine waits for something -/
theorem isSound_of_frames (h : ∀ f ∈ m.open_, ∀ t ∈ f.trees, t.IsSound)
    (hw : ∀ t, m.want ≠ .nothing t) : m.IsSound := ⟨h, fun t ht => absurd ht (hw t)⟩

theorem isSound_closeArray {items : List Tree} (hm : m.IsSound) (h : m.open_ = .array items :: fs) :
    (close (.array items.reverse) fs).IsSound := by
  have hframes := hm.frames
  rw [h, List.forall_mem_cons] at hframes
  exact isSound_close (.array fun t ht => hframes.1 t (List.mem_reverse.1 ht)) hframes.2

theorem isSound_closeObject {members : List (String × Tree)} {key : String} (hm : m.IsSound)
    (h : m.open_ = .object members key :: fs) :
    (close (.object members.reverse) fs).IsSound := by
  have hframes := hm.frames
  rw [h, List.forall_mem_cons] at hframes
  refine isSound_close (.object fun x hx => hframes.1 x.2 ?_) hframes.2
  exact List.mem_map_of_mem (List.mem_reverse.1 hx)

theorem isSound_begin (hm : m.IsSound) (ht : t.IsSound) (h : m.begin t = some next) :
    next.IsSound := by
  unfold begin at h
  split at h <;> cases h
  · exact isSound_close (.scalar fun x hx => ht x (by rw [hx])) hm.frames
  · exact isSound_of_frames (List.forall_mem_cons.2 ⟨by simp [Frame.trees], hm.frames⟩) nofun
  · exact isSound_of_frames (List.forall_mem_cons.2 ⟨by simp [Frame.trees], hm.frames⟩) nofun

theorem isSound_takeKey (hm : m.IsSound) (h : m.takeKey t = some next) : next.IsSound := by
  unfold takeKey at h
  split at h
  · split at h
    · next hopen =>
      cases h
      have hframes := hm.frames
      rw [hopen, List.forall_mem_cons] at hframes
      exact isSound_of_frames (List.forall_mem_cons.2 hframes) nofun
    · cases h
  · cases h

theorem isSound_step (hm : m.IsSound) (ht : t.IsSound) (h : m.step t = some next) :
    next.IsSound := by
  unfold step at h
  split at h
  case h_1 => exact isSound_begin hm ht h
  case h_2 _ _ hopen =>
    cases h
    exact isSound_closeArray hm hopen
  case h_3 => exact isSound_begin hm ht h
  case h_4 _ _ hopen =>
    cases h
    exact isSound_closeObject hm hopen
  case h_5 => exact isSound_takeKey hm h
  case h_6 => exact isSound_takeKey hm h
  case h_7 =>
    cases h
    exact isSound_of_frames hm.frames nofun
  case h_8 _ _ hopen =>
    cases h
    exact isSound_of_frames (hopen ▸ hm.frames) nofun
  case h_9 _ _ hopen =>
    cases h
    exact isSound_of_frames (hopen ▸ hm.frames) nofun
  case h_10 _ _ hopen =>
    cases h
    exact isSound_closeArray hm hopen
  case h_11 _ _ hopen =>
    cases h
    exact isSound_closeObject hm hopen
  case h_12 => cases h

theorem isSound_run {ts : List Token} (hm : m.IsSound) (ht : ∀ t ∈ ts, t.IsSound)
    (h : ts.foldlM step m = some next) : next.IsSound := by
  induction ts generalizing m with
  | nil =>
    cases h
    exact hm
  | cons t ts ih =>
    rw [List.forall_mem_cons] at ht
    obtain ⟨m', hstep, hrun⟩ := Option.bind_eq_some_iff.1 h
    exact ih (isSound_step hm ht.1 hstep) ht.2 hrun

end Machine

theorem Tree.isSound_of_parse {s : String} {t : Tree} (h : Tree.parse? s = some t) : t.IsSound := by
  obtain ⟨ts, hts, h⟩ := Option.bind_eq_some_iff.1 h
  obtain ⟨m, hm, h⟩ := Option.bind_eq_some_iff.1 h
  have hstart : Machine.start.IsSound := Machine.isSound_of_frames nofun nofun
  have hsound : m.IsSound := Machine.isSound_run hstart (isSound_tokens hts) hm
  refine hsound.result t ?_
  unfold Machine.result? at h
  split at h
  · next hw =>
    cases h
    exact hw
  · cases h

/-! ## values -/

namespace Tree

variable {depth : Nat}

theorem wellFormed_items
    (hvalue : ∀ (t : Tree) (v : Json), t.IsSound → valueWithin depth t = some v → v.WellFormed)
    {ts : List Tree} {vs : List Json} (ht : ∀ t ∈ ts, t.IsSound)
    (h : itemsWithin depth ts = some vs) : ∀ v ∈ vs, v.WellFormed := by
  induction ts generalizing vs with
  | nil =>
    cases h
    simp
  | cons t ts ih =>
    rw [List.forall_mem_cons] at ht
    rw [itemsWithin] at h
    obtain ⟨v, hv, h⟩ := Option.bind_eq_some_iff.1 h
    obtain ⟨vs', hvs, h⟩ := Option.bind_eq_some_iff.1 h
    cases h
    exact List.forall_mem_cons.2 ⟨hvalue t v ht.1 hv, ih ht.2 hvs⟩

theorem wellFormed_members
    (hvalue : ∀ (t : Tree) (v : Json), t.IsSound → valueWithin depth t = some v → v.WellFormed)
    {ms : List (String × Tree)} {vs : List (String × Json)} (ht : ∀ m ∈ ms, m.2.IsSound)
    (h : membersWithin depth ms = some vs) : ∀ m ∈ vs, m.2.WellFormed := by
  induction ms generalizing vs with
  | nil =>
    cases h
    simp
  | cons m ms ih =>
    obtain ⟨k, t⟩ := m
    rw [List.forall_mem_cons] at ht
    rw [membersWithin] at h
    obtain ⟨v, hv, h⟩ := Option.bind_eq_some_iff.1 h
    obtain ⟨vs', hvs, h⟩ := Option.bind_eq_some_iff.1 h
    cases h
    exact List.forall_mem_cons.2 ⟨hvalue t v ht.1 hv, ih ht.2 hvs⟩

theorem wellFormed_valueWithin (depth : Nat) (t : Tree) (v : Json) (ht : t.IsSound)
    (h : valueWithin depth t = some v) : v.WellFormed := by
  induction depth generalizing t v with
  | zero =>
    cases ht with
    | scalar hv => exact hv v h
    | array _ => cases h
    | object _ => cases h
  | succ depth ih =>
    cases ht with
    | scalar hv => exact hv v h
    | array hitems =>
      obtain ⟨vs, hvs, rfl⟩ := Option.map_eq_some_iff.1 h
      exact .array (wellFormed_items ih hitems hvs)
    | object hmembers =>
      obtain ⟨vs, hvs, rfl⟩ := Option.map_eq_some_iff.1 h
      exact wellFormed_ofMembers (wellFormed_members ih hmembers hvs)

end Tree

theorem wellFormed_of_parse {s : String} {v : Json} (h : parse? s = some v) : v.WellFormed := by
  obtain ⟨t, ht, hv⟩ := Option.bind_eq_some_iff.1 h
  exact Tree.wellFormed_valueWithin _ t v (Tree.isSound_of_parse ht) hv

theorem wellFormed_of_parseBytes {bs : List UInt8} {v : Json} (h : parseBytes? bs = some v) :
    v.WellFormed := by
  obtain ⟨s, -, hs⟩ := Option.bind_eq_some_iff.1 h
  exact wellFormed_of_parse hs

end HeaderMiner.Json
