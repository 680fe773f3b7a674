import Mathlib.Algebra.BigOperators.Group.List.Basic
import Mathlib.Algebra.GroupWithZero.Nat
import HeaderMiner.Duration
import HeaderMiner.Proofs.Text.Decimal
/-!
# Durations read back

The text of a duration is a list of amounts, and reading it adds them up one by one.  No sum on the way
is larger than the duration, so none is refused, and the amounts add up to it (`parse?_text`).
-/

namespace HeaderMiner.Duration

variable {n total : Nat} {cs : List Char} {sum : Nat × Nat} {scale : Scale}

/-! ## sums -/

def Scale.weight (s : Scale) : Nat :=
  match s.nanos? with
  | some k => k
  | none => s.seconds * nanosPerSecond

/-- the seconds and nanoseconds that make up a number of nanoseconds -/
def parts (total : Nat) : Nat × Nat := (total / nanosPerSecond, total % nanosPerSecond)

theorem nanosPerSecond_pos : 0 < nanosPerSecond := by decide

theorem bounded_of_lt (h : n < amountBound) : bounded n = some n := if_pos h

theorem addParts_parts (total s : Nat) (hn : n < nanosPerSecond)
    (ht : total + s * nanosPerSecond + n < amountBound * nanosPerSecond) :
    addParts (parts total) s n = some (parts (total + s * nanosPerSecond + n)) := by
  unfold nanosPerSecond at hn ht
  unfold amountBound at ht
  have h1 : total % nanosPerSecond + n < amountBound := by
    unfold nanosPerSecond amountBound
    omega
  have h2 : s + (total % nanosPerSecond + n) / nanosPerSecond < amountBound := by
    unfold nanosPerSecond amountBound
    omega
  have h3 : total / nanosPerSecond + (s + (total % nanosPerSecond + n) / nanosPerSecond) <
      amountBound := by
    unfold nanosPerSecond amountBound
    omega
  rw [addParts, parts]
  simp only [bounded_of_lt h1, bounded_of_lt h2, bounded_of_lt h3, Option.bind_eq_bind,
    Option.bind_some, Option.pure_def, Option.some.injEq, parts, Prod.mk.injEq]
  unfold nanosPerSecond
  omega

theorem addAmount_parts {unit : List Char} (hu : Scale.ofName? (String.ofList unit) = some scale)
    (hn : scale.nanos? = none ∨ n * scale.weight < nanosPerSecond)
    (ht : total + n * scale.weight < amountBound * nanosPerSecond) :
    addAmount (parts total) unit n none = some (parts (total + n * scale.weight)) := by
  rw [addAmount, hu, Option.bind_eq_bind, Option.bind_some, wholeParts]
  cases hk : scale.nanos? with
  | some k =>
    have hw : scale.weight = k := by rw [Scale.weight, hk]
    rw [hk, hw] at hn
    rw [hw] at ht ⊢
    have hlt := hn.resolve_left nofun
    have hadd := addParts_parts total 0 hlt
      (by rwa [Nat.zero_mul, Nat.add_zero])
    rw [Nat.zero_mul, Nat.add_zero] at hadd
    have hfits : n * k < amountBound := by
      unfold nanosPerSecond at hlt
      unfold amountBound
      omega
    dsimp only
    rw [bounded_of_lt hfits]
    simp only [Option.map_some, Option.bind_eq_bind, Option.bind_some, hadd, Option.pure_def]
  | none =>
    have hw : scale.weight = scale.seconds * nanosPerSecond := by rw [Scale.weight, hk]
    rw [hw, ← Nat.mul_assoc] at ht ⊢
    have hadd := addParts_parts total (n * scale.seconds) nanosPerSecond_pos
      (by rwa [Nat.add_zero])
    rw [Nat.add_zero] at hadd
    have hfits : n * scale.seconds < amountBound := by
      have hle := Nat.le_add_left (n * scale.seconds * nanosPerSecond) total
      exact Nat.lt_of_mul_lt_mul_right (Nat.lt_of_le_of_lt hle ht)
    dsimp only
    rw [bounded_of_lt hfits]
    simp only [Option.map_some, Option.bind_eq_bind, Option.bind_some, hadd, Option.pure_def]

/-! ## amounts -/

/-- an amount of a unit -/
structure Amount where
  n : Nat
  unit : String
  scale : Scale

namespace Amount

variable {a : Amount} {as : List Amount}

def text (a : Amount) : List Char := (toString a.n).toList ++ a.unit.toList

def nanos (a : Amount) : Nat := a.n * a.scale.weight

def add (sum : Nat × Nat) (a : Amount) : Option (Nat × Nat) :=
  addAmount sum a.unit.toList a.n none

/-- what a unit is read by: its name, and letters that end the number in front of them -/
def IsName (unit : String) (scale : Scale) : Prop :=
  Scale.ofName? unit = some scale ∧ unit.toList ≠ [] ∧ ∀ c ∈ unit.toList,
    Text.digit? c = none ∧ Text.isBlank c = false ∧ Reader.isLetter c = true

instance (unit : String) (scale : Scale) : Decidable (IsName unit scale) :=
  have : Decidable (∀ c ∈ unit.toList,
      Text.digit? c = none ∧ Text.isBlank c = false ∧ Reader.isLetter c = true) :=
    List.decidableBAll _ _
  inferInstanceAs (Decidable (_ ∧ _ ∧ _))

/-- what an amount is read by -/
structure IsReadable (a : Amount) : Prop where
  named : IsName a.unit a.scale
  lt : a.n < amountBound
  small : a.scale.nanos? = none ∨ a.nanos < nanosPerSecond

theorem foldlM_add (total : Nat) (h : ∀ a ∈ as, a.IsReadable)
    (ht : total + (as.map nanos).sum < amountBound * nanosPerSecond) :
    as.foldlM add (parts total) = some (parts (total + (as.map nanos).sum)) := by
  induction as generalizing total with
  | nil => rfl
  | cons a as ih =>
    rw [List.forall_mem_cons] at h
    rw [List.map_cons, List.sum_cons, ← Nat.add_assoc] at ht ⊢
    have hname : Scale.ofName? (String.ofList a.unit.toList) = some a.scale := by
      rw [String.ofList_toList]
      exact h.1.named.1
    have ha : add (parts total) a = some (parts (total + a.nanos)) :=
      addAmount_parts hname h.1.small (Nat.lt_of_le_of_lt (Nat.le_add_right ..) ht)
    rw [List.foldlM_cons, ha]
    exact ih _ h.2 ht

end Amount

/-! ## reading -/

namespace Reader

theorem foldlM_digits (hd : ∀ c ∈ cs, c.isDigit = true)
    (hn : Nat.ofDigitChars 10 cs n < amountBound) :
    cs.foldlM step (.integer sum n) = some (.integer sum (Nat.ofDigitChars 10 cs n)) := by
  induction cs generalizing n with
  | nil => rfl
  | cons c cs ih =>
    rw [List.forall_mem_cons] at hd
    have hnext : Nat.ofDigitChars 10 (c :: cs) n =
        Nat.ofDigitChars 10 cs (n * 10 + (c.toNat - 48)) := by
      rw [Nat.ofDigitChars_cons, Nat.mul_comm]
      rfl
    rw [hnext] at hn ⊢
    have hlt := Nat.lt_of_le_of_lt (Text.le_ofDigitChars ..) hn
    rw [List.foldlM_cons, step, Text.digit?_of_isDigit hd.1]
    dsimp only
    rw [bounded_of_lt hlt]
    exact ih hd.2 hn

theorem foldlM_number (hn : n < amountBound) (first : Bool) :
    (toString n).toList.foldlM step (.before sum first) = some (.integer sum n) := by
  have hd : ∀ c ∈ Nat.toDigits 10 n, c.isDigit = true := fun _ =>
    Nat.isDigit_of_mem_toDigits (by decide) (by decide)
  have hval : Nat.ofDigitChars 10 (Nat.toDigits 10 n) 0 = n :=
    Nat.ofDigitChars_toDigits (by decide) (by decide)
  have htext : (toString n).toList = Nat.toDigits 10 n := Nat.toList_repr
  obtain ⟨c, cs, hcons⟩ := List.exists_cons_of_ne_nil (Nat.toDigits_ne_nil (n := n) (b := 10))
  rw [hcons, List.forall_mem_cons] at hd
  rw [hcons, Nat.ofDigitChars_cons] at hval
  rw [htext, hcons, List.foldlM_cons, step, Text.digit?_of_isDigit hd.1]
  show cs.foldlM step (.integer sum (c.toNat - 48)) = _
  have hfirst : 10 * 0 + (c.toNat - '0'.toNat) = c.toNat - 48 := Nat.zero_add _
  rw [hfirst] at hval
  rw [foldlM_digits hd.2 (by rwa [hval]), hval]

theorem foldlM_letters {letters : List Char}
    (hl : ∀ c ∈ cs, Text.digit? c = none ∧ Text.isBlank c = false ∧ isLetter c = true) :
    cs.foldlM step (.unit sum n none letters) =
      some (.unit sum n none (cs.reverse ++ letters)) := by
  induction cs generalizing letters with
  | nil => rfl
  | cons c cs ih =>
    rw [List.forall_mem_cons] at hl
    obtain ⟨⟨hd, hb, hc⟩, hl⟩ := hl
    have hstep : step (.unit sum n none letters) c = some (.unit sum n none (c :: letters)) := by
      rw [step, hd, hb, hc]
      rfl
    rw [List.foldlM_cons, hstep, List.reverse_cons, List.append_assoc]
    exact ih hl

theorem foldlM_amount {a : Amount} (ha : a.IsReadable) (first : Bool) :
    a.text.foldlM step (.before sum first) = some (.unit sum a.n none a.unit.toList.reverse) := by
  obtain ⟨-, hne, hl⟩ := ha.named
  obtain ⟨c, cs, hu⟩ := List.exists_cons_of_ne_nil hne
  rw [hu, List.forall_mem_cons] at hl
  obtain ⟨⟨hd, hb, hc⟩, hl⟩ := hl
  have hstep : step (.integer sum a.n) c = some (.unit sum a.n none [c]) := by
    rw [step, hd, hb, hc]
    rfl
  rw [Amount.text, List.foldlM_append, foldlM_number ha.lt, hu]
  show (step (.integer sum a.n) c).bind (fun r => cs.foldlM step r) = _
  rw [hstep, Option.bind_some, foldlM_letters hl, List.reverse_cons]

theorem step_blank (letters : List Char) : step (.unit sum n none letters) ' ' =
    (addAmount sum letters.reverse n none).map (before · false) := by
  rw [step, Text.digit?, if_neg (by decide)]
  exact if_pos rfl

theorem foldlM_amounts {as : List Amount} (hne : as ≠ []) (ha : ∀ a ∈ as, a.IsReadable)
    (first : Bool) :
    ((List.intercalate [' '] (as.map Amount.text)).foldlM step (.before sum first)).bind finish =
      as.foldlM Amount.add sum := by
  induction as generalizing sum first with
  | nil => exact absurd rfl hne
  | cons a as ih =>
    rw [List.forall_mem_cons] at ha
    rw [List.foldlM_cons, Amount.add, Option.bind_eq_bind]
    cases as with
    | nil =>
      rw [List.map_cons, List.map_nil, List.intercalate_singleton, foldlM_amount ha.1,
        Option.bind_some, finish, List.reverse_reverse]
      exact (Option.bind_fun_some _).symm
    | cons b as =>
      have hnext (sum : Nat × Nat) :
          ((List.intercalate [' '] ((b :: as).map Amount.text)).foldlM step
            (.before sum false)).bind finish = (b :: as).foldlM Amount.add sum :=
        ih (by simp) ha.2 false
      rw [List.map_cons] at hnext
      rw [List.map_cons, List.map_cons, List.intercalate_cons_cons, List.append_assoc,
        List.foldlM_append, foldlM_amount ha.1, Option.bind_eq_bind, Option.bind_some,
        List.singleton_append, List.foldlM_cons, step_blank, List.reverse_reverse]
      cases addAmount sum a.unit.toList a.n none with
      | none => rfl
      | some sum => exact hnext sum

end Reader

/-! ## texts -/

def Amount.inWords (n : Nat) (unit : String) (scale : Scale) : Amount :=
  ⟨n, if 1 < n then unit ++ "s" else unit, scale⟩

def amounts (d : Duration) : List Amount :=
  let seconds := d.nanos / nanosPerSecond
  let nanos := d.nanos % nanosPerSecond
  let inYear := seconds % 31557600
  let inMonth := inYear % 2630016
  let inDay := inMonth % 86400
  [.inWords (seconds / 31557600) "year" .year, .inWords (inYear / 2630016) "month" .month,
    .inWords (inMonth / 86400) "day" .day, ⟨inDay / 3600, "h", .hour⟩,
    ⟨inDay % 3600 / 60, "m", .minute⟩, ⟨inDay % 60, "s", .second⟩,
    ⟨nanos / 1000000, "ms", .millisecond⟩, ⟨nanos / 1000 % 1000, "us", .microsecond⟩,
    ⟨nanos % 1000, "ns", .nanosecond⟩]

theorem Amount.sum_cons {unit : String} {w : Nat} (h : scale.weight = w) (as : List Amount) :
    ((⟨n, unit, scale⟩ :: as).map nanos).sum = n * w + (as.map nanos).sum := by
  rw [List.map_cons, List.sum_cons, nanos, h]

theorem sum_amounts (d : Duration) : (d.amounts.map Amount.nanos).sum = d.nanos := by
  have hnil : (([] : List Amount).map Amount.nanos).sum = 0 := rfl
  simp only [amounts, Amount.inWords]
  rw [Amount.sum_cons (w := 31557600000000000) rfl, Amount.sum_cons (w := 2630016000000000) rfl,
    Amount.sum_cons (w := 86400000000000) rfl, Amount.sum_cons (w := 3600000000000) rfl,
    Amount.sum_cons (w := 60000000000) rfl, Amount.sum_cons (w := 1000000000) rfl,
    Amount.sum_cons (w := 1000000) rfl, Amount.sum_cons (w := 1000) rfl,
    Amount.sum_cons (w := 1) rfl, hnil]
  unfold nanosPerSecond
  omega

theorem map_filter_amountText (as : List Amount) :
    as.flatMap (fun a => amountText a.n a.unit) =
      (as.filter (·.n ≠ 0)).map fun a => toString a.n ++ a.unit := by
  induction as with
  | nil => rfl
  | cons a as ih =>
    rw [List.flatMap_cons, ih, amountText]
    by_cases h : a.n = 0
    · rw [if_pos h, List.filter_cons_of_neg (by simpa using h)]
      rfl
    · rw [if_neg h, List.filter_cons_of_pos (by simpa using h)]
      rfl

theorem toList_text (d : Duration) (h : d.nanos ≠ 0) :
    d.text.toList = [' '].intercalate ((d.amounts.filter (·.n ≠ 0)).map Amount.text) := by
  have hlist : d.text = String.intercalate " " (d.amounts.flatMap fun a => amountText a.n a.unit) := by
    rw [text, if_neg h]
    simp only [amounts, Amount.inWords, amountWords, List.flatMap_cons, List.flatMap_nil,
      List.append_nil, List.append_assoc]
  have hpiece : (String.toList ∘ fun a : Amount => toString a.n ++ a.unit) = Amount.text :=
    funext fun a => String.toList_append
  rw [hlist, map_filter_amountText, String.toList_intercalate, List.map_map, hpiece]
  rfl

namespace Amount

variable {unit : String}

theorem isReadable_of_seconds (h : IsName unit scale) (hs : scale.nanos? = none)
    (hn : n < amountBound) : IsReadable ⟨n, unit, scale⟩ := ⟨h, hn, .inl hs⟩

theorem isReadable_inWords (h : IsName unit scale) (hplural : IsName (unit ++ "s") scale)
    (hs : scale.nanos? = none) (hn : n < amountBound) : (inWords n unit scale).IsReadable := by
  refine isReadable_of_seconds ?_ hs hn
  split
  · exact hplural
  · exact h

theorem isReadable_of_weight {w : Nat} (h : IsName unit scale) (hw : scale.weight = w)
    (hn : n * w < nanosPerSecond) (hlt : n < amountBound) : IsReadable ⟨n, unit, scale⟩ := by
  refine ⟨h, hlt, .inr ?_⟩
  rw [nanos, hw]
  exact hn

end Amount

theorem isReadable_amounts (d : Duration) : ∀ a ∈ d.amounts, a.IsReadable := by
  have hs : d.nanos / nanosPerSecond < amountBound :=
    Nat.div_lt_of_lt_mul (by rw [Nat.mul_comm]; exact d.nanos_lt)
  have hn := Nat.mod_lt d.nanos nanosPerSecond_pos
  have hlt {m : Nat} (hm : m < nanosPerSecond) : m < amountBound := Nat.lt_trans hm (by decide)
  rw [amounts]
  simp only [List.forall_mem_cons]
  generalize d.nanos / nanosPerSecond = seconds at hs ⊢
  generalize d.nanos % nanosPerSecond = nanos at hn ⊢
  refine ⟨Amount.isReadable_inWords (by decide) (by decide) rfl ?_,
    Amount.isReadable_inWords (by decide) (by decide) rfl ?_,
    Amount.isReadable_inWords (by decide) (by decide) rfl ?_,
    Amount.isReadable_of_seconds (by decide) rfl ?_, Amount.isReadable_of_seconds (by decide) rfl ?_,
    Amount.isReadable_of_seconds (by decide) rfl ?_,
    Amount.isReadable_of_weight (w := 1000000) (by decide) rfl ?_ (hlt ?_),
    Amount.isReadable_of_weight (w := 1000) (by decide) rfl ?_ (hlt ?_),
    Amount.isReadable_of_weight (w := 1) (by decide) rfl ?_ (hlt ?_), nofun⟩
  all_goals omega

theorem sum_filter (as : List Amount) :
    ((as.filter (·.n ≠ 0)).map Amount.nanos).sum = (as.map Amount.nanos).sum := by
  induction as with
  | nil => rfl
  | cons a as ih =>
    by_cases h : a.n = 0
    · rw [List.filter_cons_of_neg (by simpa using h), ih, List.map_cons, List.sum_cons,
        Amount.nanos, h, Nat.zero_mul, Nat.zero_add]
    · rw [List.filter_cons_of_pos (by simpa using h), List.map_cons, List.map_cons, List.sum_cons,
        List.sum_cons, ih]

theorem dite_nanos {d : Duration} (hn : n = d.nanos) :
    (if h : n < 2 ^ 64 * nanosPerSecond then some (⟨n, h⟩ : Duration) else none) = some d := by
  simp only [hn]
  exact dif_pos d.nanos_lt

theorem parse?_of_sum {s : String} {d : Duration} (hs : s ≠ "0")
    (hread : (s.toList.foldlM Reader.step (.before (0, 0) true)).bind Reader.finish = some sum)
    (hsum : sum.1 * nanosPerSecond + sum.2 = d.nanos) : parse? s = some d := by
  obtain ⟨r, hr, hfinish⟩ := Option.bind_eq_some_iff.1 hread
  rw [parse?, if_neg hs, hr, Option.bind_eq_bind, Option.bind_some, hfinish, Option.bind_eq_bind,
    Option.bind_some]
  exact dite_nanos hsum

theorem parse?_text (d : Duration) : parse? d.text = some d := by
  by_cases h : d.nanos = 0
  · have hd : d = ⟨0, by decide⟩ := by
      cases d
      cases h
      rfl
    rw [hd]
    decide +kernel
  · have hread : (d.text.toList.foldlM Reader.step (.before (0, 0) true)).bind Reader.finish =
        some (parts d.nanos) := by
      have hsum : ((d.amounts.filter (·.n ≠ 0)).map Amount.nanos).sum = d.nanos :=
        (sum_filter _).trans d.sum_amounts
      have hne : d.amounts.filter (·.n ≠ 0) ≠ [] := by
        intro hnil
        rw [hnil] at hsum
        exact h hsum.symm
      have hamounts : ∀ a ∈ d.amounts.filter (·.n ≠ 0), a.IsReadable := fun a ha =>
        d.isReadable_amounts a (List.mem_filter.1 ha).1
      have hadd := Amount.foldlM_add 0 hamounts
        (by rw [hsum, Nat.zero_add]; exact d.nanos_lt)
      rw [hsum, Nat.zero_add] at hadd
      rw [d.toList_text h, Reader.foldlM_amounts hne hamounts]
      exact hadd
    have hzero : d.text ≠ "0" := by
      intro h0
      rw [h0] at hread
      cases hread
    exact parse?_of_sum hzero hread (Nat.div_add_mod' ..)

end HeaderMiner.Duration
