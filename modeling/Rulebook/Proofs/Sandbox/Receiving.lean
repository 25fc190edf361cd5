import Rulebook.Proofs.Sandbox.Frame
import Rulebook.Proofs.Text.Utf8

/-!
What a script gets of a reply: the whole of its body, or a failure if the body is longer than the
limit or breaks off. One byte more than the limit is read to tell that a body is too long. No word
holds that number for the largest limit, and with that one nothing is read at all. Beyond that, the
value that a body becomes has to be within the limits of the script like any other.
-/

namespace Rulebook

open Script (Limits Position Problem Setup Value)

namespace Script.Limits

variable {limits : Limits} {value : Value}

theorem exceeds_eq_false_iff {amount limit : Nat} :
    exceeds amount limit = false ↔ limit = 0 ∨ amount ≤ limit := by
  simp [exceeds]
  omega

theorem accept_eq_ok_iff : limits.accept value = .ok () ↔
    (limits.textSize = 0 ∨ value.size.bytes ≤ limits.textSize) ∧
      (limits.listSize = 0 ∨ value.size.items ≤ limits.listSize) ∧
      (limits.mapSize = 0 ∨ value.size.fields ≤ limits.mapSize) := by
  simp only [← exceeds_eq_false_iff, accept, excess?]
  cases exceeds value.size.bytes limits.textSize with
  | true => exact ⟨nofun, nofun⟩
  | false =>
      cases exceeds value.size.items limits.listSize with
      | true => exact ⟨nofun, nofun⟩
      | false =>
          cases exceeds value.size.fields limits.mapSize with
          | true => exact ⟨nofun, nofun⟩
          | false => exact iff_of_true rfl ⟨rfl, rfl, rfl⟩

theorem accept_eq_error (refused : limits.accept value ≠ .ok ()) :
    ∃ what, limits.accept value = .error (.tooLarge what) := by
  rw [accept, excess?] at refused ⊢
  split_ifs at refused ⊢
  · exact ⟨_, rfl⟩
  · exact ⟨_, rfl⟩
  · exact ⟨_, rfl⟩
  · exact absurd rfl refused

end Script.Limits

namespace Http

variable {longest : Nat} {order : Order} {reply : Reply}

/-- A reply as scripts see it, with the whole of its body. -/
def Reply.handed (reply : Reply) : Value :=
  .map [("body", .text (Text.lossy reply.body)), ("status", .int reply.status)]

theorem Reply.handed_eq (reply : Reply) :
    .ofFields [("status", .int reply.status), ("body", .text (Text.lossy reply.body))] =
      reply.handed := by
  have other : "body" ≠ "status" := by decide
  have before : "body" < "status" := by decide
  simp [Value.ofFields, Value.setField, Reply.handed, other, before]

theorem Reply.handed_of_text {text : String} (encoded : text.toUTF8.data.toList = reply.body) :
    reply.handed = .map [("body", .text text), ("status", .int reply.status)] := by
  rw [Reply.handed, Text.lossy_of_toUTF8 encoded]

/-- A script can have a reply if the text of its body is not too long and a map of two fields not
too large. -/
theorem Reply.accept_handed_iff {limits : Limits} : limits.accept reply.handed = .ok () ↔
    (limits.textSize = 0 ∨ (Text.lossy reply.body).utf8ByteSize ≤ limits.textSize) ∧
      (limits.mapSize = 0 ∨ 2 ≤ limits.mapSize) := by
  have size : reply.handed.size = ⟨0, 2, (Text.lossy reply.body).utf8ByteSize⟩ := rfl
  rw [Script.Limits.accept_eq_ok_iff, size]
  simp

-- Three bytes that are no text take nine as marks.
example :
    let limits : Limits := { (default : Limits) with textSize := 3 }
    let reply : Reply := { status := 200, body := [0xFF, 0xFF, 0xFF] }
    limits.accept reply.handed = .error Script.Limits.textTooLong := by
  rfl

theorem Reply.handed_of_nothing_iff :
    ({ reply with body := [] } : Reply).handed = reply.handed ↔ reply.body = [] := by
  have empty : Text.lossy [] = "" := rfl
  simp only [Reply.handed, empty, Value.map.injEq, List.cons.injEq, Prod.mk.injEq, and_true,
    Value.text.injEq, true_and]
  exact eq_comm.trans Text.lossy_eq_empty_iff

/-- The body is all there, and not longer than the limit if there is one. -/
def Reply.Fits (reply : Reply) (longest : Nat) : Prop :=
  reply.failure = none ∧ (longest = 0 ∨ reply.body.length ≤ longest)

theorem readLimit_eq_succ_iff (limited : 0 < longest) (word : longest < twoTo 64) :
    readLimit longest = longest + 1 ↔ longest ≠ twoTo 64 - 1 := by
  have words : twoTo 64 = 18446744073709551616 := rfl
  rw [readLimit, if_pos limited]
  rw [words] at word ⊢
  omega

theorem readLimit_largest : readLimit (twoTo 64 - 1) = 0 := rfl

theorem Reply.read_eq_ok_iff {limit : Nat} {body : List UInt8} :
    reply.read limit = .ok body ↔
      (reply.failure = none ∨ limit ≤ reply.body.length) ∧ reply.body.take limit = body := by
  rw [Reply.read]
  cases reply.failure with
  | none => simp
  | some reason =>
      by_cases noticed : reply.body.length < limit
      · simp [noticed, Nat.not_le_of_lt noticed]
      · simp [noticed, Nat.le_of_not_lt noticed]

theorem receive_of_read {body : List UInt8} (read : reply.read (readLimit longest) = .ok body) :
    receive order longest reply =
      if 0 < longest ∧ longest < body.length then
        .error s!"{order.method} {order.url}: 响应体超过上限 {longest} 字节"
      else .ok ({ reply with body } : Reply).handed := by
  rw [receive, read, ← Reply.handed_eq]

/-- A reply of which everything is read that is there. -/
theorem receive_of_fits (fits : reply.Fits longest)
    (reached : reply.body.length ≤ readLimit longest) :
    receive order longest reply = .ok reply.handed := by
  obtain ⟨whole, short⟩ := fits
  have read : reply.read (readLimit longest) = .ok reply.body :=
    Reply.read_eq_ok_iff.mpr ⟨.inl whole, List.take_of_length_le reached⟩
  rw [receive_of_read read, if_neg (by omega)]

/-- A reply that is read past its end, or past the limit. -/
theorem receive_of_not_fits (order : Order) (unfit : ¬ reply.Fits longest)
    (past : reply.body.length < readLimit longest ∨ 0 < longest ∧ longest < readLimit longest) :
    ∃ message, receive order longest reply = .error message := by
  cases read : reply.read (readLimit longest) with
  | error reason =>
      rw [receive, read]
      exact ⟨_, rfl⟩
  | ok body =>
      obtain ⟨got, rfl⟩ := Reply.read_eq_ok_iff.mp read
      rw [receive_of_read read, List.length_take, if_pos]
      · exact ⟨_, rfl⟩
      by_cases whole : reply.failure = none
      · have long : ¬ (longest = 0 ∨ reply.body.length ≤ longest) := fun short =>
          unfit ⟨whole, short⟩
        omega
      · have unended := got.resolve_left whole
        omega

/-- Whatever the reply is, nothing of its body is read. -/
theorem receive_unread (nothing : readLimit longest = 0) :
    receive order longest reply = .ok ({ reply with body := [] } : Reply).handed := by
  have read : reply.read (readLimit longest) = .ok [] := by
    rw [nothing]
    exact Reply.read_eq_ok_iff.mpr ⟨.inr (Nat.zero_le _), List.take_zero⟩
  rw [receive_of_read read, if_neg fun both => Nat.not_lt_zero _ both.2]

end Http

/-- The answer to a call has the whole of a reply, or is a refusal if the reply does not fit. -/
structure WholeOrRefused (longest : Nat) (reply : Http.Reply) (answer : Except Problem Value) :
    Prop where
  whole : reply.Fits longest → answer = .ok reply.handed
  refused : ¬ reply.Fits longest → ∃ message, answer = .error (.raised (.text message))

/-- What a script makes of the answer to a call: it goes on with a value that its limits admit, it
has used up too much with any other, and a refusal is an error at run time. -/
structure Delivers (setup : Setup Effects) (name : String) (arguments : List Value)
    (answer : Except Problem Value) : Prop where
  value : ∀ value, answer = .ok value → setup.limits.accept value = .ok () →
    ∀ locked place machine, Script.Evaluator.native name arguments locked place setup machine =
      .ok (value, none) machine
  excess : ∀ value, answer = .ok value → setup.limits.accept value ≠ .ok () →
    ∃ interrupt report, Sandbox.faultOf setup.limits interrupt = .exhausted report ∧
      ∀ locked place machine, Script.Evaluator.native name arguments locked place setup machine =
        .error interrupt machine
  refusal : ∀ message, answer = .error (.raised (.text message)) →
    ∀ locked place machine, ∃ interrupt report,
      Script.Evaluator.native name arguments locked place setup machine =
        .error interrupt machine ∧
      Sandbox.faultOf setup.limits interrupt = .runtime report

namespace HostFunctions

variable {access : HttpAccess} {limits : Limits} {name : String} {arguments : List Value}
  {request : Http.Request} {order : Http.Order} {reply : Http.Reply}

/-- What a call answers: the value that was received, or why there is none. -/
def answerOf (received : Except String Value) : Except Problem Value :=
  received.mapError fun message => .raised (.text message)

/-- With the largest limit every body is answered as if it were empty. -/
theorem answer_of_largest (largest : limits.textSize = twoTo 64 - 1) :
    answerOf (Http.receive order limits.textSize reply) =
      .ok ({ reply with body := [] } : Http.Reply).handed := by
  rw [largest, Http.receive_unread Http.readLimit_largest]
  rfl

theorem wholeOrRefused_of_largest_iff (largest : limits.textSize = twoTo 64 - 1) :
    WholeOrRefused limits.textSize reply (answerOf (Http.receive order limits.textSize reply)) ↔
      reply.body = [] ∧ reply.failure = none := by
  rw [answer_of_largest largest]
  constructor
  · intro right
    by_cases fits : reply.Fits limits.textSize
    · have same := Except.ok.inj (right.whole fits)
      exact ⟨Http.Reply.handed_of_nothing_iff.mp same, fits.1⟩
    · obtain ⟨message, refused⟩ := right.refused fits
      cases refused
  · rintro ⟨empty, ended⟩
    refine ⟨fun _ => by rw [← empty], fun unfit => absurd ⟨ended, .inr ?_⟩ unfit⟩
    rw [empty]
    exact Nat.zero_le _

theorem wholeOrRefused_of_smaller (smaller : limits.textSize ≠ twoTo 64 - 1)
    (word : limits.textSize < twoTo 64)
    (room : limits.textSize = 0 → reply.body.length < twoTo 64 - 1) :
    WholeOrRefused limits.textSize reply
      (answerOf (Http.receive order limits.textSize reply)) := by
  have past : reply.body.length < Http.readLimit limits.textSize ∨
      0 < limits.textSize ∧ limits.textSize < Http.readLimit limits.textSize := by
    rcases Nat.eq_zero_or_pos limits.textSize with unlimited | limited
    · rw [unlimited]
      exact .inl (room unlimited)
    · rw [(Http.readLimit_eq_succ_iff limited word).mpr smaller]
      exact .inr ⟨limited, Nat.lt_succ_self _⟩
  constructor
  · intro fits
    have reached : reply.body.length ≤ Http.readLimit limits.textSize := by
      have short := fits.2
      omega
    rw [Http.receive_of_fits fits reached]
    rfl
  · intro unfit
    obtain ⟨message, refused⟩ := Http.receive_of_not_fits order unfit past
    rw [refused]
    exact ⟨message, rfl⟩

theorem order_of_request? (sent : request? limits (some access) name arguments = some request) :
    min limits.timeout access.timeout ≠ 0 ∧
      ∃ order, order? name arguments = some (.ok order) ∧ order.request = .ok request := by
  unfold request? at sent
  split at sent
  · next order same ordered =>
    cases same
    obtain ⟨inTime, formed⟩ := Option.ite_none_left_eq_some.mp sent
    refine ⟨inTime, order, ordered, ?_⟩
    cases request : order.request with
    | error reason =>
        rw [request] at formed
        cases formed
    | ok _ =>
        rw [request] at formed
        exact congrArg Except.ok (Option.some.inj formed)
  · cases sent

theorem send_of_arrived (inTime : min limits.timeout access.timeout ≠ 0)
    (formed : order.request = .ok request) (arrived : access.network request = .ok reply) :
    send access limits (.ok order) = answerOf (Http.receive order limits.textSize reply) := by
  have received : Http.send access.network (min limits.timeout access.timeout) limits.textSize
      order = Http.receive order limits.textSize reply := by
    rw [Http.send, if_neg inTime, formed]
    dsimp only
    rw [arrived]
  unfold send
  simp only [Except.bind, received]
  cases Http.receive order limits.textSize reply <;> rfl

theorem function?_of_order? {ordered : Except String Http.Order}
    (named : order? name arguments = some ordered) (now : Instant) (invocation : Invocation) :
    (withEffects now invocation limits (some access)).function? name arguments =
      some fun effects => (send access limits ordered, effects) := by
  unfold order? at named
  split at named
  case h_5 => cases named
  all_goals
    cases named
    rfl

/-- What a function of the network answers when a reply has come, and that it leaves alone what
else the script can reach. -/
theorem withEffects_answered (sent : request? limits (some access) name arguments = some request)
    (arrived : access.network request = .ok reply) (now : Instant) (invocation : Invocation) :
    ∃ order, (withEffects now invocation limits (some access)).function? name arguments =
      some fun effects => (answerOf (Http.receive order limits.textSize reply), effects) := by
  obtain ⟨inTime, order, ordered, formed⟩ := order_of_request? sent
  refine ⟨order, ?_⟩
  rw [function?_of_order? ordered, send_of_arrived inTime formed arrived]

theorem native_of_found {State : Type} {setup : Setup State}
    {call : State → Except Problem Value × State}
    (found : setup.host.function? name arguments = some call) (locked : Bool) (place : Position)
    (machine : Script.Machine State) :
    Script.Evaluator.native name arguments locked place setup machine =
      (Script.Run.placing place
          (Script.Run.lift ((call machine.host).1.mapError Script.Interrupt.of)) >>= fun value =>
        Script.Run.admitted value >>= fun value => pure (value, none))
      setup { machine with host := (call machine.host).2 } := by
  unfold Script.Evaluator.native
  dsimp only [bind, ReaderT.bind, read, readThe, MonadReaderOf.read, ReaderT.read,
    EStateM.bind, pure, EStateM.pure]
  rw [found]
  rfl

theorem native_of_value {setup : Setup Effects} {value : Value}
    (found : setup.host.function? name arguments = some fun effects => (.ok value, effects))
    (locked : Bool) (place : Position) (machine : Script.Machine Effects) :
    Script.Evaluator.native name arguments locked place setup machine =
      ((Script.Run.lift (setup.limits.accept value) >>= fun _ => pure value) >>= fun value =>
        pure (value, none)) setup machine := by
  rw [native_of_found found]
  rfl

theorem native_of_answer {setup : Setup Effects} {answer : Except Problem Value}
    (found : setup.host.function? name arguments = some fun effects => (answer, effects)) :
    Delivers setup name arguments answer where
  value value answered admitted locked place machine := by
    subst answered
    rw [native_of_value found, admitted]
    rfl
  excess value answered refused := by
    subst answered
    obtain ⟨what, same⟩ := Script.Limits.accept_eq_error refused
    refine ⟨.tooLarge what, _, rfl, fun locked place machine => ?_⟩
    rw [native_of_value found, same]
    rfl
  refusal message answered locked place machine := by
    subst answered
    refine ⟨.failed (.raised (.text message)) (some place), _, ?_, rfl⟩
    rw [native_of_found found]
    rfl

/-- Once a reply has come, the call answers with the whole of it or with an error, as it fits,
unless the limit is the largest there is: one more than that is no word, and nothing is read. The
whole of it is the very text that the body encodes. Where the body is no text, the marks for that
can make it longer than the limit admits, and then the script has used up too much. -/
theorem bodies_whole_iff (sent : request? limits (some access) name arguments = some request)
    (arrived : access.network request = .ok reply) (word : limits.textSize < twoTo 64)
    (room : limits.textSize = 0 → reply.body.length < twoTo 64 - 1) (now : Instant)
    (invocation : Invocation) :
    (0 < limits.textSize → (Http.readLimit limits.textSize = limits.textSize + 1 ↔
        limits.textSize ≠ twoTo 64 - 1)) ∧
      (∀ text : String, text.toUTF8.data.toList = reply.body →
        reply.handed = .map [("body", .text text), ("status", .int reply.status)]) ∧
      (limits.accept reply.handed = .ok () ↔
        (limits.textSize = 0 ∨ (Text.lossy reply.body).utf8ByteSize ≤ limits.textSize) ∧
          (limits.mapSize = 0 ∨ 2 ≤ limits.mapSize)) ∧
      ∃ answer, (withEffects now invocation limits (some access)).function? name arguments =
          some (fun effects => (answer, effects)) ∧
        (WholeOrRefused limits.textSize reply answer ↔
          limits.textSize ≠ twoTo 64 - 1 ∨ reply.body = [] ∧ reply.failure = none) ∧
        ∀ functions, Delivers ⟨limits, functions, withEffects now invocation limits (some access)⟩
          name arguments answer := by
  refine ⟨fun limited => Http.readLimit_eq_succ_iff limited word,
    fun text => Http.Reply.handed_of_text, Http.Reply.accept_handed_iff, ?_⟩
  obtain ⟨order, found⟩ := withEffects_answered sent arrived now invocation
  refine ⟨_, found, ?_, fun functions => native_of_answer found⟩
  by_cases largest : limits.textSize = twoTo 64 - 1
  · rw [wholeOrRefused_of_largest_iff largest]
    exact (or_iff_right fun smaller => smaller largest).symm
  · exact iff_of_true (wholeOrRefused_of_smaller largest word room) (.inl largest)

def pong : Http.Reply where
  status := 200
  body := [112, 111, 110, 103]

/-- A network that has the same reply for every request. -/
def ponging : HttpAccess where
  network _ := .ok pong
  timeout := 5000000000

def limitsOf (textSize : Nat) : Limits where
  timeout := 20000000000
  operations := 100000
  textSize
  listSize := 10000
  mapSize := 10000
  callLevels := 32
  expressionDepth := 64

def ping (textSize : Nat) : Option (Effects → Except Problem Value × Effects) :=
  (withEffects ⟨0, 0⟩ {} (limitsOf textSize) (some ponging)).function? "http_get"
    [.text "http://ping/"]

theorem ping_sent (textSize : Nat) :
    request? (limitsOf textSize) (some ponging) "http_get" [.text "http://ping/"] =
      some ⟨"GET", "http://ping/", [], none⟩ := by
  rfl

/-- Four bytes are handed on if so many are allowed, and refused if it is one less. -/
theorem pong_whole_or_refused :
    (ping 4 = some fun effects =>
        (.ok (.map [("body", .text "pong"), ("status", .int 200)]), effects)) ∧
      ∃ message, ping 3 = some fun effects => (.error (.raised (.text message)), effects) := by
  obtain ⟨_, _, _, _, enough, whole, _⟩ :=
    bodies_whole_iff (ping_sent 4) rfl (by decide) (by decide) ⟨0, 0⟩ {}
  obtain ⟨_, _, _, _, tooFew, refused, _⟩ :=
    bodies_whole_iff (ping_sent 3) rfl (by decide) (by decide) ⟨0, 0⟩ {}
  constructor
  · have fits : pong.Fits 4 := ⟨rfl, .inr (by decide)⟩
    rw [ping, enough, (whole.mpr (.inl (by decide))).whole fits]
    rfl
  · have unfit : ¬ pong.Fits 3 := fun fits => absurd fits.2 (by decide)
    obtain ⟨message, same⟩ := (refused.mpr (.inl (by decide))).refused unfit
    exact ⟨message, by rw [ping, tooFew, same]⟩

/-- They are lost without a word if the limit is the largest one. -/
theorem pong_lost :
    Http.readLimit (twoTo 64 - 1) = 0 ∧ pong.Fits (twoTo 64 - 1) ∧
      (ping (twoTo 64 - 1) = some fun effects =>
        (.ok (.map [("body", .text ""), ("status", .int 200)]), effects)) ∧
      ¬ WholeOrRefused (twoTo 64 - 1) pong
        (.ok (.map [("body", .text ""), ("status", .int 200)])) := by
  have fits : pong.Fits (twoTo 64 - 1) := ⟨rfl, .inr (by decide)⟩
  refine ⟨Http.readLimit_largest, fits, ?_, fun right => ?_⟩
  · obtain ⟨order, found⟩ := withEffects_answered (ping_sent (twoTo 64 - 1)) rfl ⟨0, 0⟩ {}
    rw [ping, found, answer_of_largest rfl]
    rfl
  · have same : ({ pong with body := [] } : Http.Reply).handed = pong.handed :=
      Except.ok.inj (right.whole fits)
    cases Http.Reply.handed_of_nothing_iff.mp same

end HostFunctions

end Rulebook
