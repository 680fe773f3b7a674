import HeaderMiner.Rpc
import HeaderMiner.Proofs.Work.Acceptance
/-!
# Replies of the node

A reply passes six checks in a fixed order before it has a result: the user is let in, the reply says
that it is JSON, it is, it is not `null`, it reports no error, and the status is 200
(`Reply.decides_result`).  What a call returns is decoded from that result alone.  The calls of a
client are numbered from one, whatever comes back in between (`Client.Leads.ids_eq`), and all of them
are sent to its node as its user (`Client.Leads.addressed`).
-/

namespace HeaderMiner.Rpc

variable {r : Reply} {body err v x : Json} {e : Error} {message : String} {code : Int}

/-! ## what a body reports -/

/-- whether a body has an error that is not `null` -/
def IsError (body err : Json) : Prop := body.get? "error" = some err ∧ err ≠ .null

/-- whether an error has a message and a code, where each is made up if it is missing -/
structure Reports (err : Json) (message : String) (code : Int) : Prop where
  message : err.get? "message" = some (.string message) ∨
    (∀ s, err.get? "message" ≠ some (.string s)) ∧ message = "Unknown error"
  code : (∃ v, err.get? "code" = some v ∧ v.IsInteger code) ∨
    (∀ v n, err.get? "code" = some v → ¬v.IsInteger n) ∧ code = 0

theorem reports (herr : err.WellFormed) :
    Reports err (((err.get? "message").bind Json.asString?).getD "Unknown error")
      (((err.get? "code").bind Json.asInt?).getD 0) := by
  constructor
  · cases hm : err.get? "message" with
    | none => exact .inr ⟨nofun, rfl⟩
    | some v =>
      cases v with
      | string s => exact .inl rfl
      | _ => exact .inr ⟨nofun, rfl⟩
  · cases hc : err.get? "code" with
    | none => exact .inr ⟨nofun, rfl⟩
    | some v =>
      have hint (n : Int) : v.asInt? = some n ↔ v.IsInteger n :=
        Json.asInt?_eq_some_iff (herr.get? hc)
      show (∃ u, some v = some u ∧ u.IsInteger (v.asInt?.getD 0)) ∨ _ ∧ v.asInt?.getD 0 = 0
      cases hi : v.asInt? with
      | some n => exact .inl ⟨v, rfl, (hint n).1 hi⟩
      | none =>
        refine .inr ⟨fun u n hu hn => ?_, rfl⟩
        cases hu
        cases hi.symm.trans ((hint n).2 hn)

/-- a body without an error reports none, and an error is reported by its message and code -/
theorem reported?_cases (hbody : body.WellFormed) :
    (reported? body = none ∧ ∀ err, ¬IsError body err) ∨
    ∃ err message code, reported? body = some (.rpc message code) ∧ IsError body err ∧
      Reports err message code := by
  unfold reported? IsError
  cases he : body.get? "error" with
  | none => exact .inl ⟨rfl, nofun⟩
  | some err =>
    by_cases hn : err = .null
    · subst hn
      refine .inl ⟨rfl, fun err herr => ?_⟩
      cases herr.1
      exact herr.2 rfl
    · refine .inr ⟨err, _, _, ?_, ⟨rfl, hn⟩, reports (hbody.get? he)⟩
      cases err with
      | null => contradiction
      | _ => rfl

/-- goes on where a body reports no error -/
def heed (body : Json) : Except Error Unit :=
  match reported? body with
  | some e => .error e
  | none => .ok ()

theorem heed_eq_ok_iff (hbody : body.WellFormed) {u : Unit} :
    heed body = .ok u ↔ ∀ err, ¬IsError body err := by
  unfold heed
  rcases reported?_cases hbody with ⟨hnone, hno⟩ | ⟨err, message, code, hsome, herr, -⟩
  · rw [hnone]
    exact iff_of_true rfl hno
  · rw [hsome]
    exact iff_of_false nofun fun hno => hno err herr

namespace Reply

/-! ## the checks -/

/-- whether a reply says in readable characters that its body is JSON -/
def IsJson (r : Reply) : Prop :=
  ∃ value, r.contentType = some value ∧ (∀ b ∈ value, b = 9 ∨ 32 ≤ b ∧ b ≤ 126) ∧
    Utf8.encode "application/json" <+: value

theorem saysJson_iff : r.saysJson = true ↔ r.IsJson := by
  unfold saysJson IsJson
  cases r.contentType with
  | none => simp
  | some value => simp [isReadable]

/-- the checks that a reply has to pass, in their order -/
def checks (r : Reply) : List Check :=
  [fun e => r.status = 401 ∧ e = .unauthorized,
    fun e => ¬r.IsJson ∧ e = .protocol "Bad response (wrong content-type).",
    fun e => Json.parseBytes? r.body = none ∧ ∃ why, e = .json why,
    fun e => Json.parseBytes? r.body = some .null ∧
      e = .protocol "No body for JSON-RPC response.",
    fun e => ∃ body err message code, Json.parseBytes? r.body = some body ∧ IsError body err ∧
      Reports err message code ∧ e = .rpc message code,
    fun e => r.status ≠ 200 ∧ e = .protocol ("Status code: " ++ toString r.status ++ ".")]

theorem result_eq (r : Reply) :
    r.result = (do
      Check.ensure (¬r.status = 401) .unauthorized
      Check.ensure (r.saysJson = true) (.protocol "Bad response (wrong content-type).")
      let body ← Check.demand (Json.parseBytes? r.body) (.json "bad reply")
      Check.ensure (body.isNull = false) (.protocol "No body for JSON-RPC response.")
      heed body
      Check.ensure (r.status = 200) (.protocol ("Status code: " ++ toString r.status ++ "."))
      return (body.get? "result").getD .null) := by
  unfold result
  split
  · next h401 =>
    rw [Check.ensure_of_not (not_not.2 h401)]
    rfl
  · next h401 =>
    rw [Check.ensure_of h401]
    split
    · next hjson =>
      rw [Check.ensure_of_not (by simpa using hjson)]
      rfl
    · next hjson =>
      rw [Check.ensure_of (by simpa using hjson)]
      split
      · next hbody =>
        rw [hbody]
        rfl
      · next hbody =>
        rw [hbody]
        rfl
      · next body hnull hbody =>
        have hn : body.isNull = false := Json.isNull_eq_false_iff.2 hnull
        show _ = (Check.demand (Json.parseBytes? r.body) (.json "bad reply") >>= fun body => _)
        rw [hbody]
        show _ = (Check.ensure (body.isNull = false) _ >>= fun _ => _)
        rw [Check.ensure_of hn]
        show _ = (heed body >>= fun _ => _)
        unfold heed
        cases reported? body with
        | some e => rfl
        | none =>
          by_cases h200 : r.status = 200
          · rw [if_neg (not_not.2 h200), Check.ensure_of h200]
            rfl
          · rw [if_pos h200, Check.ensure_of_not h200]
            rfl

theorem decides_parse (bs : List UInt8) (why : String) :
    Check.Decides [fun e => Json.parseBytes? bs = none ∧ ∃ why, e = .json why]
      (Check.demand (Json.parseBytes? bs) (.json why)) := by
  cases hp : Json.parseBytes? bs with
  | none =>
    refine Check.decides_step (fun e he => ?_) nofun
    cases he
    exact ⟨rfl, why, rfl⟩
  | some body => exact Check.decides_step nofun fun _ _ e h => nomatch h.1

theorem decides_isNull {o : Option Json} (hbody : o = some body) (e : Error) :
    Check.Decides [fun e' => o = some .null ∧ e' = e] (Check.ensure (body.isNull = false) e) := by
  have hnull : o = some .null ↔ ¬body.isNull = false := by
    rw [hbody, Option.some.injEq, Json.isNull_eq_false_iff, not_ne_iff]
  simp only [hnull]
  exact Check.decides_ensure _ e

theorem decides_heed {o : Option Json} (hbody : o = some body) (hwf : body.WellFormed) :
    Check.Decides [fun e => ∃ body err message code, o = some body ∧ IsError body err ∧
      Reports err message code ∧ e = .rpc message code] (heed body) := by
  unfold heed
  rcases reported?_cases hwf with ⟨hnone, hno⟩ | ⟨err, message, code, hsome, herr, hreports⟩
  · rw [hnone]
    refine Check.decides_step nofun ?_
    rintro _ _ e ⟨body', err, -, -, hbody', herr, -⟩
    cases hbody.symm.trans hbody'
    exact hno err herr
  · rw [hsome]
    refine Check.decides_step (fun e he => ?_) nofun
    cases he
    exact ⟨body, err, message, code, hbody, herr, hreports, rfl⟩

/-- the checks in their order decide what comes of a reply -/
theorem decides_result (r : Reply) : Check.Decides r.checks r.result := by
  have h401 := Check.decides_ensure (¬r.status = 401) .unauthorized
  have hjson := Check.decides_ensure (r.saysJson = true)
    (.protocol "Bad response (wrong content-type).")
  rw [not_not] at h401
  simp only [saysJson_iff] at hjson
  rw [result_eq]
  refine h401.bind fun _ _ => ?_
  refine hjson.bind fun _ _ => ?_
  refine (decides_parse r.body _).bind fun body hbody => ?_
  have hbody : Json.parseBytes? r.body = some body := Check.demand_eq_ok_iff.1 hbody
  refine (decides_isNull hbody _).bind fun _ _ => ?_
  refine (decides_heed hbody (Json.wellFormed_of_parseBytes hbody)).bind fun _ _ => ?_
  refine (Check.decides_ensure (r.status = 200) _).bind fun _ _ => ?_
  exact Check.decides_ok _

theorem result_eq_ok_iff :
    r.result = .ok x ↔
      r.status = 200 ∧ r.IsJson ∧ ∃ body, Json.parseBytes? r.body = some body ∧ body ≠ .null ∧
        (∀ err, ¬IsError body err) ∧ x = (body.get? "result").getD .null := by
  rw [result_eq]
  simp only [bind_eq_ok_iff, Check.ensure_eq_ok_iff, Check.demand_eq_ok_iff, saysJson_iff,
    Json.isNull_eq_false_iff]
  constructor
  · rintro ⟨-, -, -, hjson, body, hbody, -, hnull, _, hheed, -, h200, hx⟩
    cases hx
    exact ⟨h200, hjson, body, hbody, hnull,
      (heed_eq_ok_iff (Json.wellFormed_of_parseBytes hbody)).1 hheed, rfl⟩
  · rintro ⟨h200, hjson, body, hbody, hnull, hno, rfl⟩
    have h401 : ¬r.status = 401 := by omega
    exact ⟨(), h401, (), hjson, body, hbody, (), hnull, (),
      (heed_eq_ok_iff (Json.wellFormed_of_parseBytes hbody)).2 hno, (), h200, rfl⟩

theorem wellFormed_result (h : r.result = .ok x) : x.WellFormed := by
  obtain ⟨-, -, body, hbody, -, -, rfl⟩ := result_eq_ok_iff.1 h
  cases hx : body.get? "result" with
  | none => exact .null
  | some v => exact (Json.wellFormed_of_parseBytes hbody).get? hx

/-! ## what calls return -/

theorem work_eq_none_iff : (Exchange.reply r).work = .ok none ↔ r.result = .ok .null := by
  rw [Exchange.work, bind_eq_ok_iff]
  simp only [WorkAnswer.ofJson_eq_ok_none_iff, exists_eq_right]
  rfl

theorem work_eq_some_iff {a : WorkAnswer} :
    (Exchange.reply r).work = .ok (some a) ↔ ∃ x, r.result = .ok x ∧ WorkAnswer.IsAnswer x a := by
  rw [Exchange.work, bind_eq_ok_iff]
  refine exists_congr fun x => and_congr_right fun hx => ?_
  exact WorkAnswer.ofJson_eq_ok_some_iff (wellFormed_result hx)

theorem verdict_ofJson_eq_ok_iff {y : Verdict} :
    Verdict.ofJson v = .ok y ↔ ∃ rest, v = .array (.bool y.accepted :: .string y.reason :: rest) := by
  constructor
  · intro h
    cases v with
    | array items =>
      cases items with
      | nil => cases h
      | cons first items =>
        cases first with
        | bool accepted =>
          cases items with
          | nil => cases h
          | cons second rest =>
            cases second with
            | string reason =>
              cases h
              exact ⟨rest, rfl⟩
            | _ => cases h
        | _ => cases h
    | _ => cases h
  · rintro ⟨rest, rfl⟩
    rfl

theorem verdict_eq_ok_iff {y : Verdict} :
    (Exchange.reply r).verdict = .ok y ↔
      ∃ rest, r.result = .ok (.array (.bool y.accepted :: .string y.reason :: rest)) := by
  rw [Exchange.verdict, bind_eq_ok_iff]
  simp only [verdict_ofJson_eq_ok_iff]
  constructor
  · rintro ⟨x, hx, rest, rfl⟩
    exact ⟨rest, hx⟩
  · rintro ⟨rest, hx⟩
    exact ⟨_, hx, rest, rfl⟩

end Reply

/-! ## calls -/

/-- what happens between a client and the node -/
inductive Happening where
  | sent (call : Call)
  | ended (x : Exchange)

namespace Client

/-- what may happen to a client: it makes calls, whichever they are, and exchanges end in between -/
inductive Leads (c : Client) : List Happening → Client → Prop
  | start : Leads c [] c
  | call {hs : List Happening} {c' : Client} (h : Leads c hs c') (method : String) (params : Json) :
      Leads c (hs ++ [.sent (c'.call method params).1]) (c'.call method params).2
  | ended {hs : List Happening} {c' : Client} (h : Leads c hs c') (x : Exchange) :
      Leads c (hs ++ [.ended x]) c'

end Client

def sent (hs : List Happening) : List Call :=
  hs.filterMap fun
    | .sent call => some call
    | .ended _ => none

theorem sent_append (hs hs' : List Happening) : sent (hs ++ hs') = sent hs ++ sent hs' :=
  List.filterMap_append ..

theorem Client.Leads.calls_eq {c c' : Client} {hs : List Happening} (h : c.Leads hs c') :
    c'.calls = c.calls + (sent hs).length := by
  induction h with
  | start => rfl
  | call h method params ih =>
    rw [sent_append, List.length_append, ← Nat.add_assoc, ← ih]
    rfl
  | ended h x ih =>
    rw [sent_append, List.length_append, ← Nat.add_assoc, ← ih]
    rfl

theorem Client.Leads.ids_eq {c c' : Client} {hs : List Happening} (h : c.Leads hs c') :
    (sent hs).map Call.id = List.range' (c.calls + 1) (sent hs).length := by
  induction h with
  | start => rfl
  | @call hs c' h method params ih =>
    have hid : c'.calls + 1 = c.calls + 1 + 1 * (sent hs).length := by
      have hcalls := h.calls_eq
      omega
    rw [sent_append, List.map_append, ih, List.length_append]
    show _ ++ [c'.calls + 1] = List.range' _ (_ + 1)
    rw [List.range'_concat, hid]
  | ended h x ih =>
    rw [sent_append, List.map_append, ih, List.length_append]
    exact List.append_nil _

/-- a client changes by the number of its calls alone -/
theorem Client.Leads.eq {c c' : Client} {hs : List Happening} (h : c.Leads hs c') :
    c' = { c with calls := c'.calls } := by
  induction h with
  | start => rfl
  | call h method params ih =>
    rw [ih]
    rfl
  | ended h x ih => exact ih

theorem Client.Leads.addressed {c c' : Client} {hs : List Happening} (h : c.Leads hs c') :
    ∀ call ∈ sent hs, call.line = c.requestLine ∧ call.authorization = c.authorization := by
  induction h with
  | start => exact fun _ hm => nomatch hm
  | @call hs c' h method params ih =>
    intro call hm
    rw [sent_append] at hm
    rcases List.mem_append.1 hm with hm | hm
    · exact ih call hm
    · obtain rfl := List.mem_singleton.1 hm
      rw [h.eq]
      exact ⟨rfl, rfl⟩
  | @ended hs c' h x ih =>
    have hs : sent (hs ++ [.ended x]) = sent hs := (sent_append ..).trans (List.append_nil _)
    rw [hs]
    exact ih

theorem Call.get?_body (call : Call) : call.body.get? "id" = some (.natural call.id) :=
  Json.lookup_insert_self ..

theorem Client.calls_of_new {url user pass : String} {c : Client}
    (h : Client.new url user pass = .ok c) : c.calls = 0 := by
  unfold Client.new at h
  split at h
  · cases h
    rfl
  · cases h

/-- A reply has a result exactly if it is a JSON reply of status 200 whose body is neither `null` nor
reports an error; otherwise the first check that it does not pass gives the error.  Work and verdicts
are decoded from that result alone.  And the calls that a client sends have the numbers 1, 2, 3 and so
on, whatever comes back in between. -/
theorem replies_exact :
    (∀ r : Reply,
      (∀ x, r.result = .ok x ↔
        r.status = 200 ∧ r.IsJson ∧ ∃ body, Json.parseBytes? r.body = some body ∧ body ≠ .null ∧
          (∀ err, ¬IsError body err) ∧ x = (body.get? "result").getD .null) ∧
      Check.Decides r.checks r.result ∧
      ((Exchange.reply r).work = .ok none ↔ r.result = .ok .null) ∧
      (∀ a, (Exchange.reply r).work = .ok (some a) ↔
        ∃ x, r.result = .ok x ∧ WorkAnswer.IsAnswer x a) ∧
      (∀ y : Verdict, (Exchange.reply r).verdict = .ok y ↔
        ∃ rest, r.result = .ok (.array (.bool y.accepted :: .string y.reason :: rest))) ∧
      ∀ e, r.result = .error e →
        (Exchange.reply r).work = .error e ∧ (Exchange.reply r).verdict = .error e) ∧
    ∀ (url user pass : String) (c c' : Client) (hs : List Happening),
      Client.new url user pass = .ok c → c.Leads hs c' →
        ∀ k call, (sent hs)[k]? = some call →
          call.id = k + 1 ∧ call.body.get? "id" = some (.natural (k + 1)) := by
  constructor
  · intro r
    refine ⟨fun x => Reply.result_eq_ok_iff, r.decides_result, Reply.work_eq_none_iff,
      fun a => Reply.work_eq_some_iff, fun y => Reply.verdict_eq_ok_iff, fun e he => ?_⟩
    constructor
    · show (r.result >>= _) = _
      rw [he]
      rfl
    · show (r.result >>= _) = _
      rw [he]
      rfl
  · intro url user pass c c' hs hc h k call hk
    have hid : ((sent hs).map Call.id)[k]? = some call.id := by rw [List.getElem?_map, hk]; rfl
    rw [h.ids_eq, Client.calls_of_new hc] at hid
    have hlt : k < (sent hs).length := (List.getElem?_eq_some_iff.1 hk).1
    rw [List.getElem?_range' hlt, Option.some.injEq] at hid
    have hk : call.id = k + 1 := by omega
    exact ⟨hk, by rw [call.get?_body, hk]⟩

end HeaderMiner.Rpc
