import Campaign.Proofs.Engine.Story
import Campaign.Proofs.Failing
/-!
# What counts as sent

A webhook takes a message as sent when the status of the answer is no error and its body does not
refuse the message (`Answer.Accepts`); else sending has failed, and in no other way than that.  What
bodies decode to is left open.

* `reply_of_accepts` and `reply_of_not_accepts` are the two replies;
* `accepts_success_iff` says when the same answers would be accepted if a success was asked for;
* `sayings_of_accepted` and `sayings_of_failed` are what the engine then writes into the log;
* `Webhook.sends_soundly` puts them together.
-/
namespace Campaign

namespace Answer

/-- A status that tells of a success. -/
def Success (status : Int) : Prop := 200 ≤ status ∧ status < 300

/-- A status that tells of an error. -/
def Erroneous (status : Int) : Prop := 400 ≤ status ∧ status < 600

/-- What a body decodes to refuses the message: it is an object that says so. -/
def Refuses (decoded : Option Value) : Prop :=
  ∃ fields, decoded = some (.object fields) ∧ fields.lookup "ok" = some (.bool false)

/-- An answer accepts a message: there is a response, with a good status, and its body does not
refuse the message. -/
inductive Accepts (good : Int → Prop) (decode : String → Option Value) : Answer → Prop
  | response {status : Int} {body : String} (reason url : String) :
      good status → ¬ Refuses (decode body) → Accepts good decode (.response status reason url body)

/-- A response tells neither of a success nor of an error. -/
inductive Indecisive : Answer → Prop
  | response {status : Int} (reason url body : String) :
      ¬ Success status → ¬ Erroneous status → Indecisive (.response status reason url body)

theorem Success.not_erroneous {status : Int} (h : Success status) : ¬ Erroneous status := by
  intro he
  have hlow := he.1
  have hhigh := h.2
  omega

theorem refuses_iff (decoded : Option Value) :
    Refuses decoded ↔ (Webhook.bodyFields decoded).lookup "ok" = some (.bool false) := by
  constructor
  · rintro ⟨fields, rfl, hok⟩
    exact hok
  · intro hok
    unfold Webhook.bodyFields at hok
    split at hok
    · exact ⟨_, rfl, hok⟩
    · cases hok

theorem accepts_response_iff {good : Int → Prop} {decode : String → Option Value} {status : Int}
    {reason url body : String} : (response status reason url body).Accepts good decode ↔
      good status ∧ ¬ Refuses (decode body) := by
  constructor
  · rintro ⟨_, _, hstatus, hbody⟩
    exact ⟨hstatus, hbody⟩
  · rintro ⟨hstatus, hbody⟩
    exact .response reason url hstatus hbody

/-- To ask for a success is the same as to ask that there is no error, unless a response that
tells of neither is accepted. -/
theorem accepts_success_iff (decode : String → Option Value) (answer : Answer) :
    answer.Accepts Success decode ↔
      answer.Accepts (¬ Erroneous ·) decode ∧ ¬ answer.Indecisive := by
  constructor
  · rintro ⟨reason, url, hs, hr⟩
    refine ⟨.response reason url hs.not_erroneous hr, ?_⟩
    rintro ⟨_, _, _, hs', -⟩
    exact hs' hs
  · rintro ⟨⟨reason, url, he, hr⟩, hd⟩
    refine .response reason url ?_ hr
    by_contra hs
    exact hd (.response reason url _ hs he)

end Answer

namespace Webhook

variable (decode : String → Option Value) (w : Webhook) (now : Int) (m : Message)

/-- What the failure says when a message was not sent. -/
def complaint (m : Message) (reason : String) : String :=
  "Message send to " ++ m.recipient ++ " failed: " ++ reason

theorem statusError?_eq_none_iff (status : Int) (reason url : String) :
    statusError? status reason url = none ↔ ¬ Answer.Erroneous status := by
  unfold statusError? Answer.Erroneous
  split
  case isTrue hclient =>
    simp only [reduceCtorEq, false_iff, not_not]
    omega
  case isFalse hclient =>
    split
    case isTrue hserver =>
      simp only [reduceCtorEq, false_iff, not_not]
      omega
    case isFalse hserver =>
      simp only [true_iff]
      omega

/-- A message is taken that is accepted. -/
theorem reply_of_accepts {answer : Answer}
    (h : answer.Accepts (¬ Answer.Erroneous ·) decode) :
    ∃ id, (w.replyDecoding decode now m answer).1 = .accepted id := by
  obtain ⟨reason, url, hstatus, hbody⟩ := h
  rw [Answer.refuses_iff] at hbody
  simp only [replyDecoding, (statusError?_eq_none_iff _ reason url).2 hstatus]
  exact ⟨_, rfl⟩

/-- A message is not sent that is not accepted, and operators are told of no message. -/
theorem reply_of_not_accepts {answer : Answer}
    (h : ¬ answer.Accepts (¬ Answer.Erroneous ·) decode) :
    ∃ reason, w.replyDecoding decode now m answer = (.failed (.send (complaint m reason)), []) := by
  cases answer with
  | trouble text => exact ⟨text, rfl⟩
  | response status reason url body =>
    simp only [replyDecoding]
    split
    case h_1 text herror => exact ⟨text, rfl⟩
    case h_2 hnone =>
      have hrefused : Answer.Refuses (decode body) := by
        by_contra hbody
        exact h (.response reason url ((statusError?_eq_none_iff _ _ _).1 hnone) hbody)
      rw [Answer.refuses_iff] at hrefused
      simp only [hrefused]
      exact ⟨_, rfl⟩

end Webhook

namespace Engine

variable {e : Engine} {ticket : Nat} {sd : Sending} {r : Run} {l : Live}

/-- The log of a run goes on with the news that its message was sent. -/
theorem sayings_of_accepted (hc : e.Coherent) (hsd : e.sending.lookup ticket = some sd)
    (h : (e.about sd.run).Going [] r l) (now : Int) (id : String) :
    ∃ r' more, ((e.take now (.reply ticket (.accepted id))).about sd.run).record = some r' ∧
      r'.sayings = r.sayings ++ (.info, "Sent message via " ++ e.channel) :: more := by
  have hm := mem_of_lookup_sending hsd
  have hget : (e.answered ticket).live.get? sd.run = some l := h.live
  have hw : Walked sd.run [(.info, "Sent message via " ++ e.channel)] [] (e.answered ticket) _ :=
    (walked_log now .info ("Sent message via " ++ e.channel)
      (.object [("result", .object [("ok", .bool true), ("id", .text id)])])).trans
        (walked_leave sd.node.id)
  obtain ⟨r₁, l₁, hg, hsay, -⟩ := (going_answered hc.tidy hm h).walked_of hw.own
  obtain ⟨r', hr', hfollows⟩ := recounts_proceed hg now sd.flowId
    (l.flow.behind sd.node.id sd.path .everywhere ++ sd.rest)
  obtain ⟨entries, hlog⟩ := hfollows.log_prefix
  refine ⟨r', entries.map LogEntry.said, ?_, ?_⟩
  · have htake : e.take now (.reply ticket (.accepted id)) = e.reply now ticket (.accepted id) :=
      rfl
    rw [htake, reply_eq]
    simp only [hsd, afterReply, hget]
    exact hr'
  · rw [Run.sayings, ← hlog, List.map_append]
    change r₁.sayings ++ _ = _
    rw [hsay]
    simp

/-- The log of a run ends with the news that its message was not sent. -/
theorem sayings_of_failed (hc : e.Coherent) (hsd : e.sending.lookup ticket = some sd)
    (h : (e.about sd.run).Going [] r l) (now : Int) (failure : Failure) :
    ∃ r', ((e.take now (.reply ticket (.failed failure))).about sd.run).record = some r' ∧
      r'.status = .failed ∧ r'.sayings = r.sayings ++ sd.node.lastWords failure := by
  rcases exists_departure_reply hc.tidy hsd h now (.failed failure) with ⟨⟨d⟩⟩ | ⟨⟨d⟩⟩
  · obtain ⟨id, heq⟩ := d.accepted ticket _ rfl
    cases heq
  · obtain ⟨share, duty, record, said, error, reason, hsay, -, -, -, -, habout⟩ := d
    cases reason with
    | @rejected _ _ sd' failure' hsd' _ hfailure =>
      obtain rfl : sd' = sd := Option.some.inj (hsd'.symm.trans hsd)
      obtain rfl : failure' = failure := (Option.some.inj hfailure).symm
      rw [habout]
      refine ⟨_, rfl, rfl, ?_⟩
      rw [sayings_failed, hsay]
      simp [Node.lastWords, Node.complaint]

/-- An answer changes the record of no run but that of the message, and of this only while it
goes on. -/
theorem record_of_unheard (hc : e.Coherent) (hsd : e.sending.lookup ticket = some sd) (now : Int)
    (reply : Reply) {s : String} (hr : (e.about s).record = some r)
    (hs : s ≠ sd.run ∨ (e.about s).live = none) :
    ((e.take now (.reply ticket reply)).about s).record = some r := by
  have hadm : (Turn.reply ticket reply).Admitted e := trivial
  by_cases hconcerns : (Turn.reply ticket reply).Concerns e s
  case neg =>
    rw [about_take_of_ne hc.tidy now hadm hconcerns]
    exact hr
  obtain ⟨sd', hsd', rfl⟩ := hconcerns
  obtain rfl : sd' = sd := Option.some.inj (hsd'.symm.trans hsd)
  have hnone := hs.resolve_left fun hne => hne rfl
  cases hc.known hr with
  | going r' l hg => exact absurd hg.live (by simp [hnone])
  | ended r' hr' hterm =>
    rw [(frozen_take hc hr' hterm now hadm).record]
    exact hr

end Engine

namespace Webhook

open Answer

/-- **A message counts as sent just when it was accepted.**  Whatever bodies decode to, a webhook
takes a message as sent if there is a response whose status is no error and whose body does not
refuse the message; that is when the response is a success, unless it tells neither of a success nor
of an error.  In every other case sending has failed, and in no other way.  When the reply arrives
the log of the run goes on with the news that the message was sent, or else ends with the news that
it was not; no other record is changed, nor that of a run that has ended meanwhile. -/
theorem sends_soundly (decode : String → Option Value) (w : Webhook) (now : Int)
    (answer : Answer) :
    (∀ m,
      let said := w.replyDecoding decode now m answer
      ((∃ id, said.1 = .accepted id) ↔ answer.Accepts (¬ Erroneous ·) decode) ∧
      (¬ answer.Indecisive → ((∃ id, said.1 = .accepted id) ↔ answer.Accepts Success decode)) ∧
      (¬ (∃ id, said.1 = .accepted id) →
        ∃ reason, said = (.failed (.send (complaint m reason)), []))) ∧
    ∀ e : Engine, e.Reachable → ∀ ticket sd, e.sending.lookup ticket = some sd → ∀ later,
      let e' := e.take later (.reply ticket (w.replyDecoding decode now sd.message answer).1)
      (∀ s r, e.runs.get? s = some r → s ≠ sd.run ∨ e.live.get? s = none →
        e'.runs.get? s = some r) ∧
      (e.live.get? sd.run ≠ none → ∃ r r', e.runs.get? sd.run = some r ∧
        e'.runs.get? sd.run = some r' ∧
        (answer.Accepts (¬ Erroneous ·) decode → ∃ more,
          r'.sayings = r.sayings ++ (.info, "Sent message via " ++ e.channel) :: more) ∧
        (¬ answer.Accepts (¬ Erroneous ·) decode → r'.status = .failed ∧ ∃ reason,
          r'.sayings = r.sayings ++ sd.node.lastWords (.send (complaint sd.message reason)))) := by
  constructor
  · intro m said
    have hsent : (∃ id, said.1 = .accepted id) ↔ answer.Accepts (¬ Erroneous ·) decode := by
      constructor
      · rintro ⟨id, hid⟩
        by_contra hnot
        obtain ⟨reason, hreply⟩ := reply_of_not_accepts decode w now m hnot
        simp only [said, hreply, reduceCtorEq] at hid
      · intro haccepts
        exact reply_of_accepts decode w now m haccepts
    refine ⟨hsent, ?_, ?_⟩
    · intro hdecisive
      rw [accepts_success_iff, and_iff_left hdecisive]
      exact hsent
    · intro hnot
      exact reply_of_not_accepts decode w now m (mt hsent.2 hnot)
  · intro e he ticket sd hsd later e'
    refine ⟨fun s r hr hs => Engine.record_of_unheard he.coherent hsd later _ hr hs, ?_⟩
    intro hlive
    obtain ⟨l, hl⟩ := Option.ne_none_iff_exists'.1 hlive
    obtain ⟨r, hg, -⟩ := he.coherent.going hl
    by_cases haccepts : answer.Accepts (¬ Erroneous ·) decode
    · obtain ⟨id, hid⟩ := reply_of_accepts decode w now sd.message haccepts
      obtain ⟨r', more, hr', hsay⟩ := Engine.sayings_of_accepted he.coherent hsd hg later id
      refine ⟨r, r', hg.record, ?_, fun _ => ⟨more, hsay⟩, fun hnot => absurd haccepts hnot⟩
      simp only [e', hid]
      exact hr'
    · obtain ⟨reason, hreply⟩ := reply_of_not_accepts decode w now sd.message haccepts
      obtain ⟨r', hr', hstatus, hsay⟩ := Engine.sayings_of_failed he.coherent hsd hg later
        (.send (complaint sd.message reason))
      refine ⟨r, r', hg.record, ?_, fun h => absurd h haccepts, fun _ => ⟨hstatus, reason, hsay⟩⟩
      simp only [e', hreply]
      exact hr'

/-- A webhook to look at. -/
def hook : Webhook := { url := "https://hooks.example/send", timeout := .int 10 }

/-- A message to look at. -/
def hello : Message := ⟨"ann@example.org", "Hello", none⟩

/-- An engine in which a message of a greeting is under way. -/
def underWay : Engine :=
  Engine.follow { channel := "mail" } [(0, .start "r" greeting order), (1, .begin "r")]

/-- A provider refuses the message of a greeting: the run fails, and nothing is said of a message
that was sent. -/
theorem refused_greeting_sends_soundly :
    let answer := Answer.response 200 "OK" hook.url "\x7b\"ok\": false\x7d"
    ∃ sd r r' reason, underWay.sending.lookup 0 = some sd ∧ underWay.runs.get? "r" = some r ∧
      (underWay.take 2 (.reply 0 (hook.reply 2 sd.message answer).1)).runs.get? "r" = some r' ∧
      r'.status = .failed ∧
      r'.sayings = r.sayings ++ sd.node.lastWords (.send (complaint sd.message reason)) := by
  intro answer
  have hreach : underWay.Reachable := (Engine.Reachable.idle "mail").follow ⟨rfl, trivial, trivial⟩
  have hsent : (underWay.sending.lookup 0).map Sending.run = some "r" := by decide +kernel
  obtain ⟨sd, hsd, hrun⟩ := Option.map_eq_some_iff.1 hsent
  have hlive : underWay.live.get? sd.run ≠ none := by
    rw [hrun, Option.ne_none_iff_isSome]
    decide +kernel
  obtain ⟨hmessages, hruns⟩ := sends_soundly decoded? hook 2 answer
  have hfailed : (hook.reply 2 hello answer).1 =
      .failed (.send "Message send to ann@example.org failed: rejected by provider") := by
    decide +kernel
  have hrefused : ¬ answer.Accepts (¬ Erroneous ·) decoded? := by
    intro haccepts
    obtain ⟨id, hid⟩ := (hmessages hello).1.2 haccepts
    exact absurd (hfailed.symm.trans hid) (by simp)
  obtain ⟨r, r', hr, hr', -, hrejected⟩ := (hruns underWay hreach 0 sd hsd 2).2 hlive
  obtain ⟨hstatus, reason, hsay⟩ := hrejected hrefused
  rw [hrun] at hr hr'
  exact ⟨sd, r, r', reason, hsd, hr, hr', hstatus, hsay⟩

/-- A response that tells neither of a success nor of an error is enough: a message counts as sent,
and the log says so, when the address has only said that nothing was modified. -/
theorem not_modified_counts_as_sent :
    let answer := Answer.response 304 "Not Modified" hook.url ""
    let reply := (hook.reply 2 hello answer).1
    reply = .accepted "" ∧ ¬ answer.Accepts Success decoded? ∧
      ((underWay.take 2 (.reply 0 reply)).runs.get? "r").map
        (fun r => r.sayings.contains (.info, "Sent message via mail")) = some true := by
  refine ⟨by decide +kernel, ?_, by decide +kernel⟩
  intro haccepts
  exact absurd (accepts_response_iff.1 haccepts).1.2 (by decide)

end Webhook

end Campaign
