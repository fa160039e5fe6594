import CfdiVault.Library.FifoDelivery
import CfdiVault.QueueAdapters

/-!
# Messages that cannot be decoded

A delivery is bytes.  `consume_one` and `consume_one_with_handler` decode it in the same
way, but a body that `json.loads` or `from_dict` rejects is dropped by the first and put
back at the head of the queue by the second, where every later call finds it again.
`undecodable_iff` says for which queue contents every well-formed message is handled
nevertheless.
-/

namespace CfdiVault

namespace Recovery

open MessageQueue FifoDelivery

/-! ## The two consumers -/

/-- `json.loads(body.decode("utf-8"))`, then `QueueMessage.from_dict`. -/
def readBody (loads : Bytes → Option Json) (reader : Reader) (body : Bytes) :
    Except Fault QueueMessage :=
  match loads body with
  | some payload => reader.decode payload
  | none => .error .payload

section Consumers

variable {α B ε M : Type} (channel : Channel α B) (read : α → Except ε M) (queueName : String)

/-- `RabbitMqQueue.consume_one`: the message is returned to the caller. -/
def consumeOne (b : B) : Consumed α M ε M × B :=
  match channel.basicGet queueName b with
  | (none, b) => (.empty, b)
  | (some body, b) =>
      match read body with
      | .error _ => (.refused body, channel.basicNack false b)
      | .ok message => (.passed body message (.ok message), channel.basicAck b)

/-- `RabbitMqQueue.consume_one_with_handler`, the handler with a state of its own. -/
def consumeOneWithHandler {σ ρ : Type} (handler : M → σ → Except ε ρ × σ) (b : B) (s : σ) :
    Consumed α M ε ρ × B × σ :=
  match channel.basicGet queueName b with
  | (none, b) => (.empty, b, s)
  | (some body, b) =>
      match read body with
      | .error _ => (.refused body, channel.basicNack true b, s)
      | .ok message =>
          match handler message s with
          | (.error e, s) => (.passed body message (.error e), channel.basicNack true b, s)
          | (.ok value, s) => (.passed body message (.ok value), channel.basicAck b, s)

end Consumers

/-- The channel operations of a broker. -/
def Broker.channel {B : Type} (broker : Broker B) : Channel Json B :=
  ⟨broker.basicGet, broker.basicAck, broker.basicNack⟩

/-- On the bodies of a broker of JSON documents this is the consumer of the adapter. -/
theorem consumeOneWithHandler_rabbitMq {B ρ : Type} (broker : Broker B) (reader : Reader)
    (queueName : String) (handler : QueueMessage → Except Fault ρ) (b : B) :
    let consumed := consumeOneWithHandler broker.channel reader.decode queueName
      (fun message (s : PUnit) => (handler message, s)) b ⟨⟩
    let adapter := RabbitMqQueue.consumeOneWithHandler broker reader queueName handler b
    adapter.2 = consumed.2.1 ∧ adapter.1 = match consumed.1 with
      | .empty => .empty
      | .refused body => .refused (queueName, body)
      | .passed body message outcome => .passed (queueName, body) message outcome := by
  unfold consumeOneWithHandler RabbitMqQueue.consumeOneWithHandler Broker.channel
  dsimp only
  rcases broker.basicGet queueName b with ⟨_ | body, b'⟩
  · exact ⟨rfl, rfl⟩
  · dsimp only
    cases reader.decode body with
    | error e => exact ⟨rfl, rfl⟩
    | ok message =>
        dsimp only
        cases handler message <;> exact ⟨rfl, rfl⟩

/-! ## Repeated calls -/

/-- The body whose message was passed on to a handler that returned. -/
def handledBody {α M ε ρ : Type} : Consumed α M ε ρ → Option α
  | .passed body _ (.ok _) => some body
  | _ => none

section Calls

variable {α B ε M : Type} (channel : Channel α B) (queueName : String)

/-- The bodies returned by calls of `consume_one`; each call reads in its own way, since
a message without a creation time takes that of the call. -/
def returnedBodies : List (α → Except ε M) → B → List α
  | [], _ => []
  | read :: calls, b =>
      (handledBody (consumeOne channel read queueName b).1).toList ++
        returnedBodies calls (consumeOne channel read queueName b).2

/-- The bodies handled by calls of `consume_one_with_handler`. -/
def handledBodies {σ ρ : Type} (handler : M → σ → Except ε ρ × σ) :
    List (α → Except ε M) → B × σ → List α
  | [], _ => []
  | read :: calls, (b, s) =>
      (handledBody (consumeOneWithHandler channel read queueName handler b s).1).toList ++
        handledBodies handler calls (consumeOneWithHandler channel read queueName handler b s).2

end Calls

section Laws

variable {α B ε M : Type} {channel : Channel α B} {queueName : String} {waiting : B → List α}
variable {readable : α → Bool}

/-- A way of reading accepts exactly the readable bodies. -/
def Reads (readable : α → Bool) (read : α → Except ε M) : Prop :=
  ∀ body, readable body = (read body).toBool

/-- One call of `consume_one` is one step of a consumer that drops what it cannot read. -/
theorem consumeOne_step (hfifo : Fifo channel queueName waiting) {read : α → Except ε M}
    (hreads : Reads readable read) (b : B) :
    (handledBody (consumeOne channel read queueName b).1,
      waiting (consumeOne channel read queueName b).2) = consume readable false (waiting b) := by
  obtain ⟨next, ⟨hgot, hw, hleft⟩ | ⟨body, rest, hgot, hw, hack, hnack⟩⟩ := hfifo.got b
  · rw [consumeOne, hgot, hw]
    show (none, waiting next) = _
    rw [hleft]
    rfl
  · rw [consumeOne, hgot, hw]
    dsimp only
    rw [consume]
    cases hread : read body with
    | error e =>
        rw [hreads body, hread]
        exact congrArg (Prod.mk none) (hnack false)
    | ok message =>
        rw [hreads body, hread]
        exact congrArg (Prod.mk (some body)) hack

/-- One call of `consume_one_with_handler` is one step of a consumer that puts back what it
cannot read. -/
theorem consumeOneWithHandler_step (hfifo : Fifo channel queueName waiting)
    {read : α → Except ε M} (hreads : Reads readable read) {σ ρ : Type}
    {handler : M → σ → Except ε ρ × σ} (hreturns : ∀ message s, ∃ value, (handler message s).1 = .ok value)
    (b : B) (s : σ) :
    (handledBody (consumeOneWithHandler channel read queueName handler b s).1,
      waiting (consumeOneWithHandler channel read queueName handler b s).2.1) =
        consume readable true (waiting b) := by
  obtain ⟨next, ⟨hgot, hw, hleft⟩ | ⟨body, rest, hgot, hw, hack, hnack⟩⟩ := hfifo.got b
  · rw [consumeOneWithHandler, hgot, hw]
    show (none, waiting next) = _
    rw [hleft]
    rfl
  · rw [consumeOneWithHandler, hgot, hw]
    dsimp only
    rw [consume]
    cases hread : read body with
    | error e =>
        rw [hreads body, hread]
        exact congrArg (Prod.mk none) (hnack true)
    | ok message =>
        obtain ⟨value, hvalue⟩ := hreturns message s
        rcases hhandled : handler message s with ⟨outcome, t⟩
        rw [hhandled] at hvalue
        cases hvalue
        rw [hreads body, hread]
        dsimp only
        rw [hhandled]
        exact congrArg (Prod.mk (some body)) hack

theorem returnedBodies_eq (hfifo : Fifo channel queueName waiting) {calls : List (α → Except ε M)}
    (hreads : ∀ read ∈ calls, Reads readable read) (b : B) :
    returnedBodies channel queueName calls b = drain readable false calls.length (waiting b) := by
  induction calls generalizing b with
  | nil => rfl
  | cons read calls ih =>
      have hstep := consumeOne_step hfifo (hreads read List.mem_cons_self) b
      rw [returnedBodies, ih fun r hr => hreads r (List.mem_cons_of_mem read hr), List.length_cons,
        drain, ← hstep]

theorem handledBodies_eq (hfifo : Fifo channel queueName waiting) {calls : List (α → Except ε M)}
    (hreads : ∀ read ∈ calls, Reads readable read) {σ ρ : Type} {handler : M → σ → Except ε ρ × σ}
    (hreturns : ∀ message s, ∃ value, (handler message s).1 = .ok value) (b : B) (s : σ) :
    handledBodies channel queueName handler calls (b, s) =
      drain readable true calls.length (waiting b) := by
  induction calls generalizing b s with
  | nil => rfl
  | cons read calls ih =>
      have hstep := consumeOneWithHandler_step hfifo (hreads read List.mem_cons_self) hreturns b s
      rw [handledBodies, List.length_cons, drain, ← hstep]
      rcases consumeOneWithHandler channel read queueName handler b s with ⟨consumed, b', s'⟩
      rw [ih fun r hr => hreads r (List.mem_cons_of_mem read hr)]

end Laws

/-! ## Bodies of messages -/

/-- `json.loads` and `from_dict` accept a body. -/
def wellFormed (loads : Bytes → Option Json) (reader : Reader) (body : Bytes) : Bool :=
  (readBody loads reader body).toBool

theorem toBool_bind_congr {ε α β : Type} {x y : Except ε α} {f g : α → Except ε β}
    (hx : x.toBool = y.toBool) (h : ∀ a b, x = .ok a → y = .ok b → (f a).toBool = (g b).toBool) :
    (x >>= f).toBool = (y >>= g).toBool := by
  cases x with
  | error e =>
      cases y with
      | error e' => rfl
      | ok b => cases hx
  | ok a =>
      cases y with
      | error e' => cases hx
      | ok b => exact h a b rfl rfl

theorem createdAtOf_now (earlier later : DateTime) (data : List (String × Json)) :
    (createdAtOf earlier data).toBool = (createdAtOf later data).toBool := by
  rw [createdAtOf, createdAtOf]
  split <;> rfl

theorem fromDict_now {text : Json → String} {integer : Json → Option Int} (earlier later : DateTime)
    (data : List (String × Json)) :
    (fromDict text integer earlier data).toBool = (fromDict text integer later data).toBool := by
  rw [fromDict, fromDict]
  refine toBool_bind_congr (createdAtOf_now earlier later data) fun createdAt createdAt' _ _ => ?_
  -- what follows reads the same fields, and only passes the creation time on
  iterate 8
    refine toBool_bind_congr rfl fun value value' hvalue hvalue' => ?_
    rw [hvalue] at hvalue'
    cases hvalue'
  rfl

/-- When a message is read makes no difference to whether it can be read. -/
theorem wellFormed_reads (loads : Bytes → Option Json) (reader : Reader) (now : DateTime) :
    Reads (wellFormed loads reader) (readBody loads { reader with now := now }) := by
  intro body
  rw [wellFormed, readBody, readBody]
  cases loads body with
  | none => rfl
  | some payload =>
      cases payload with
      | obj data => exact fromDict_now reader.now now data
      | _ => rfl

/-! ## The law -/

/-- With a call for each message and handlers that return, `consume_one_with_handler`
handles every well-formed message exactly once if and only if none stands behind a body
that cannot be decoded.  `consume_one` returns each of them in every queue. -/
theorem undecodable_iff {B σ ρ : Type} (loads : Bytes → Option Json) (reader : Reader)
    (channel : Channel Bytes B) (queueName : String) (waiting : B → List Bytes)
    (hfifo : Fifo channel queueName waiting) (handler : QueueMessage → σ → Except Fault ρ × σ)
    (hreturns : ∀ message s, ∃ value, (handler message s).1 = .ok value) (b : B) (s : σ)
    (clocks : List DateTime) (hcalls : clocks.length = (waiting b).length) :
    let calls := clocks.map fun now => readBody loads { reader with now := now }
    ((handledBodies channel queueName handler calls (b, s)).Perm
        ((waiting b).filter (wellFormed loads reader)) ↔
      Unblocked (wellFormed loads reader) (waiting b)) ∧
    returnedBodies channel queueName calls b = (waiting b).filter (wellFormed loads reader) := by
  intro calls
  have hreads : ∀ read ∈ calls, Reads (wellFormed loads reader) read := by
    intro read hread
    obtain ⟨now, -, rfl⟩ := List.mem_map.mp hread
    exact wellFormed_reads loads reader now
  have hlength : calls.length = (waiting b).length := (List.length_map _).trans hcalls
  rw [handledBodies_eq hfifo hreads hreturns, returnedBodies_eq hfifo hreads, hlength]
  exact ⟨drained_iff (waiting b), drained (waiting b)⟩

/-- The bytes of an ASCII text. -/
def asciiBytes (text : String) : Bytes := text.toList.map fun c => UInt8.ofNat c.toNat

/-- A message as another program may publish it, and the empty object, which names no
queue. -/
def verifyBody : Bytes := asciiBytes
  "\x7b\"queue\":\"sat.verify\",\"job_id\":\"job-1\",\"tenant_id\":\"default\",\"rfc\":\"XAXX010101000\",\"correlation_id\":\"corr-1\"\x7d"

def emptyBody : Bytes := asciiBytes "\x7b\x7d"

/-- `json.loads` on the two bodies and on nothing else. -/
def loadsSample (body : Bytes) : Option Json :=
  if body = verifyBody then
    some (.obj [("queue", .str "sat.verify"), ("job_id", .str "job-1"), ("tenant_id", .str "default"),
      ("rfc", .str "XAXX010101000"), ("correlation_id", .str "corr-1")])
  else if body = emptyBody then some (.obj [])
  else none

theorem undecodable_iff_sample :
    (handledBodies listChannel "sat.verify" (fun message (s : PUnit) => (.ok message, s))
      ([plainReader.now, plainReader.now].map fun now => readBody loadsSample { plainReader with now := now })
      (([verifyBody, emptyBody], none), ⟨⟩)).Perm
        ([verifyBody, emptyBody].filter (wellFormed loadsSample plainReader)) :=
  (undecodable_iff loadsSample plainReader listChannel "sat.verify" Prod.fst (listChannel_fifo _)
    (fun message (s : PUnit) => (.ok message, s)) (fun message _ => ⟨message, rfl⟩)
    ([verifyBody, emptyBody], none) ⟨⟩ [plainReader.now, plainReader.now] rfl).1.mpr
      (by unfold Unblocked; decide +kernel)

/-- An empty object stands before a message, and after two calls the message has not been
handled. -/
theorem undecodable_blocks :
    ¬ ∀ (clocks : List DateTime) (bodies : List Bytes), clocks.length = bodies.length →
      (handledBodies listChannel "sat.verify" (fun message (s : PUnit) => (.ok message, s))
        (clocks.map fun now => readBody loadsSample { plainReader with now := now })
        ((bodies, none), ⟨⟩)).Perm (bodies.filter (wellFormed loadsSample plainReader)) := by
  intro h
  have hperm := h [plainReader.now, plainReader.now] [emptyBody, verifyBody] rfl
  exact absurd hperm.length_eq (by decide +kernel)

end Recovery

end CfdiVault
