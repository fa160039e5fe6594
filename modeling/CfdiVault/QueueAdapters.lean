import CfdiVault.Library.MessageQueue
import CfdiVault.QueueMessages
import CfdiVault.RecoveryFailure

/-!
# Queue adapters

The two adapters behind `consume_one_with_handler`.  The in-memory adapter removes a
message before it calls the handler and has nothing to put back when the handler raises;
the RabbitMQ adapter acknowledges a delivery after the handler returned and requeues it
otherwise.  `nothing_lost_iff` compares them over every run of publications and
consumptions.

The broker is not part of the program.  It is a parameter with the laws of
`Broker.Lawful`: an acknowledged delivery is gone, a requeued one is back.
-/

namespace CfdiVault

namespace Recovery

open MessageQueue

/-! ## In memory -/

/-- `InMemoryQueue`: one deque for each queue name in use. -/
structure InMemoryQueue where
  messages : List (String × List QueueMessage) := []

namespace InMemoryQueue

/-- Append a message to the deque of a name, a new one if there is none. -/
def push (queueName : String) (message : QueueMessage) :
    List (String × List QueueMessage) → List (String × List QueueMessage)
  | [] => [(queueName, [message])]
  | (name, waiting) :: rest =>
      if name = queueName then (name, waiting ++ [message]) :: rest
      else (name, waiting) :: push queueName message rest

/-- Take the first message from the deque of a name. -/
def popleft (queueName : String) :
    List (String × List QueueMessage) → List (String × List QueueMessage)
  | [] => []
  | (name, waiting) :: rest =>
      if name = queueName then (name, waiting.tail) :: rest
      else (name, waiting) :: popleft queueName rest

def publish (message : QueueMessage) (q : InMemoryQueue) : InMemoryQueue :=
  ⟨push message.queue.value message q.messages⟩

/-- The message that is next in a queue. -/
def next (queueName : String) (q : InMemoryQueue) : Option QueueMessage :=
  (q.messages.lookup queueName).bind List.head?

def consumeOne (queueName : String) (q : InMemoryQueue) : Option QueueMessage × InMemoryQueue :=
  match q.next queueName with
  | some message => (some message, ⟨popleft queueName q.messages⟩)
  | none => (none, q)

def consumeOneWithHandler {ε ρ : Type} (queueName : String) (handler : QueueMessage → Except ε ρ)
    (q : InMemoryQueue) : Consumed QueueMessage QueueMessage ε ρ × InMemoryQueue :=
  match q.consumeOne queueName with
  | (none, q) => (.empty, q)
  | (some message, q) => (.passed message message (handler message), q)

/-- The messages of all queues. -/
def pending (q : InMemoryQueue) : List QueueMessage := q.messages.flatMap (·.2)

theorem pending_push (queueName : String) (message : QueueMessage)
    (messages : List (String × List QueueMessage)) :
    ((push queueName message messages).flatMap (·.2)).Perm (message :: messages.flatMap (·.2)) := by
  induction messages with
  | nil => exact List.Perm.refl _
  | cons entry rest ih =>
      obtain ⟨name, waiting⟩ := entry
      rw [push]
      split
      · rw [List.flatMap_cons, List.flatMap_cons]
        exact (List.perm_append_singleton message waiting).append_right _
      · rw [List.flatMap_cons, List.flatMap_cons]
        exact (ih.append_left waiting).trans List.perm_middle

theorem pending_popleft {queueName : String} {message : QueueMessage}
    {messages : List (String × List QueueMessage)}
    (h : (messages.lookup queueName).bind List.head? = some message) :
    (messages.flatMap (·.2)).Perm (message :: (popleft queueName messages).flatMap (·.2)) := by
  induction messages with
  | nil => cases h
  | cons entry rest ih =>
      obtain ⟨name, waiting⟩ := entry
      rw [popleft, List.flatMap_cons]
      by_cases hname : name = queueName
      · rw [if_pos hname, List.flatMap_cons]
        rw [List.lookup_cons, hname, beq_self_eq_true] at h
        have hhead : waiting.head? = some message := h
        dsimp only
        rw [← List.cons_head?_tail (Option.mem_def.mpr hhead)]
        exact List.Perm.refl _
      · rw [if_neg hname, List.flatMap_cons]
        rw [List.lookup_cons, beq_eq_false_iff_ne.mpr (Ne.symm hname)] at h
        exact ((ih h).append_left waiting).trans List.perm_middle

/-- No handler of a run raises on the message that is next in its queue. -/
def HandlersReturn {ε ρ : Type} (q : InMemoryQueue) : List (Operation QueueMessage ε ρ) → Prop
  | [] => True
  | .publish message :: rest => HandlersReturn (q.publish message) rest
  | .consume queueName handler :: rest =>
      (∀ message, q.next queueName = some message → ∃ value, handler message = .ok value) ∧
        HandlersReturn (q.consumeOne queueName).2 rest

end InMemoryQueue

/-- The in-memory adapter. -/
def inMemory (ε ρ : Type) : Adapter InMemoryQueue QueueMessage QueueMessage ε ρ where
  publish := InMemoryQueue.publish
  consume := InMemoryQueue.consumeOneWithHandler
  pending := InMemoryQueue.pending
  item := id

section InMemory

variable {ε ρ : Type}

theorem inMemory_consume (queueName : String) (handler : QueueMessage → Except ε ρ)
    (q : InMemoryQueue) : (inMemory ε ρ).consume queueName handler q =
      match q.next queueName with
      | some message => (.passed message message (handler message),
          ⟨InMemoryQueue.popleft queueName q.messages⟩)
      | none => (.empty, q) := by
  unfold inMemory InMemoryQueue.consumeOneWithHandler InMemoryQueue.consumeOne
  dsimp only
  cases q.next queueName <;> rfl

/-- The message is gone from the queue whatever its handler does. -/
theorem inMemory_passed {queueName : String} {handler : QueueMessage → Except ε ρ} {q : InMemoryQueue}
    {item message : QueueMessage} {outcome : Except ε ρ}
    (h : ((inMemory ε ρ).consume queueName handler q).1 = .passed item message outcome) :
    ((inMemory ε ρ).pending q).Perm
      (item :: (inMemory ε ρ).pending ((inMemory ε ρ).consume queueName handler q).2) := by
  rw [inMemory_consume] at h ⊢
  cases hnext : q.next queueName with
  | none =>
      rw [hnext] at h
      cases h
  | some next =>
      rw [hnext] at h
      cases h
      exact InMemoryQueue.pending_popleft hnext

theorem inMemory_drops : Drops (inMemory ε ρ) where
  publish message q := InMemoryQueue.pending_push _ _ _
  empty queueName handler q h := by
    rw [inMemory_consume] at h ⊢
    cases hnext : q.next queueName with
    | none => exact List.Perm.refl _
    | some next =>
        rw [hnext] at h
        cases h
  refused queueName handler q item h := by
    rw [inMemory_consume] at h
    cases hnext : q.next queueName <;> rw [hnext] at h <;> cases h
  returned _ _ _ _ _ _ h := inMemory_passed h
  raised _ _ _ _ _ _ h := inMemory_passed h

theorem inMemory_handlersReturn (q : InMemoryQueue) (operations : List (Operation QueueMessage ε ρ)) :
    HandlersReturn (inMemory ε ρ) q operations ↔ q.HandlersReturn operations := by
  induction operations generalizing q with
  | nil => exact Iff.rfl
  | cons operation rest ih =>
      cases operation with
      | publish message => exact ih _
      | consume queueName handler =>
          rw [HandlersReturn, InMemoryQueue.HandlersReturn, ih, inMemory_consume,
            InMemoryQueue.consumeOne]
          cases q.next queueName with
          | none => simp
          | some next =>
              refine and_congr_left fun _ => ?_
              constructor
              · rintro h message hmessage
                cases hmessage
                cases houtcome : handler next with
                | error e => exact absurd (congrArg (Consumed.passed next next) houtcome) (h next next e)
                | ok value => exact ⟨value, rfl⟩
              · intro h item message e hpassed
                obtain ⟨value, hvalue⟩ := h next rfl
                dsimp only at hpassed
                rw [hvalue] at hpassed
                cases hpassed

end InMemory

/-! ## RabbitMQ -/

/-- What the adapter uses of a broker: the deliveries that are ready, by queue name, and
the channel operations.  A channel has at most one delivery that is not settled. -/
structure Broker (B : Type) where
  ready : B → List (String × Json)
  basicPublish : String → Json → B → B
  basicGet : String → B → Option Json × B
  basicAck : B → B
  basicNack : (requeue : Bool) → B → B

/-- The documented behaviour of a broker. -/
structure Broker.Lawful {B : Type} (broker : Broker B) : Prop where
  publish : ∀ name body b,
    (broker.ready (broker.basicPublish name body b)).Perm ((name, body) :: broker.ready b)
  empty : ∀ name b, (broker.basicGet name b).1 = none →
    (broker.ready (broker.basicGet name b).2).Perm (broker.ready b)
  ack : ∀ name b body, (broker.basicGet name b).1 = some body →
    (broker.ready b).Perm ((name, body) :: broker.ready (broker.basicAck (broker.basicGet name b).2))
  nack : ∀ name b body, (broker.basicGet name b).1 = some body →
    (broker.ready (broker.basicNack true (broker.basicGet name b).2)).Perm (broker.ready b)

/-- How a worker reads a body: the conversions of `from_dict`, and its clock. -/
structure Reader where
  textOf : Json → String
  intOf : Json → Option Int
  now : DateTime

/-- `json.dumps(message.as_dict(), sort_keys=True)`. -/
def bodyOf (message : QueueMessage) : Json := .obj (Json.sortMembers (asDict message))

/-- `QueueMessage.from_dict(json.loads(body))`. -/
def Reader.decode (reader : Reader) : Json → Except Fault QueueMessage
  | .obj data => fromDict (Json.toText reader.textOf) (integerOf reader.intOf) reader.now data
  | _ => .error .payload

namespace RabbitMqQueue

variable {B : Type} (broker : Broker B)

def publish (message : QueueMessage) (b : B) : B :=
  broker.basicPublish message.queue.value (bodyOf message) b

def consumeOneWithHandler {ε ρ : Type} (reader : Reader) (queueName : String)
    (handler : QueueMessage → Except ε ρ) (b : B) : Consumed (String × Json) QueueMessage ε ρ × B :=
  match broker.basicGet queueName b with
  | (none, b) => (.empty, b)
  | (some body, b) =>
      match reader.decode body with
      | .error _ => (.refused (queueName, body), broker.basicNack true b)
      | .ok message =>
          match handler message with
          | .error e => (.passed (queueName, body) message (.error e), broker.basicNack true b)
          | .ok value => (.passed (queueName, body) message (.ok value), broker.basicAck b)

end RabbitMqQueue

/-- The RabbitMQ adapter.  What it holds of a message is its body under a queue name. -/
def rabbitMq (ε ρ : Type) {B : Type} (broker : Broker B) (reader : Reader) :
    Adapter B QueueMessage (String × Json) ε ρ where
  publish := RabbitMqQueue.publish broker
  consume := RabbitMqQueue.consumeOneWithHandler broker reader
  pending := broker.ready
  item message := (message.queue.value, bodyOf message)

section RabbitMq

variable {ε ρ B : Type} {broker : Broker B} {reader : Reader}

/-- A published body gives its handler the published message, its payload in key order. -/
theorem decode_bodyOf (reader : Reader) (message : QueueMessage) :
    reader.decode (bodyOf message) =
      .ok { message with payload := Json.sortMembers message.payload } :=
  fromDict_asDict message

/-- The branches of one consumption: nothing was ready, the body could not be read, the
handler raised, or it returned. -/
theorem rabbitMq_consume_cases (queueName : String) (handler : QueueMessage → Except ε ρ) (b : B) :
    let got := broker.basicGet queueName b
    let consumed := (rabbitMq ε ρ broker reader).consume queueName handler b
    (got.1 = none ∧ consumed = (.empty, got.2)) ∨
      ∃ body, got.1 = some body ∧
        (consumed = (.refused (queueName, body), broker.basicNack true got.2) ∨
          (∃ message e, consumed =
            (.passed (queueName, body) message (.error e), broker.basicNack true got.2)) ∨
          ∃ message value, consumed =
            (.passed (queueName, body) message (.ok value), broker.basicAck got.2)) := by
  unfold rabbitMq RabbitMqQueue.consumeOneWithHandler
  dsimp only
  rcases broker.basicGet queueName b with ⟨_ | body, b'⟩
  · exact .inl ⟨rfl, rfl⟩
  · refine .inr ⟨body, rfl, ?_⟩
    dsimp only
    cases reader.decode body with
    | error e => exact .inl rfl
    | ok message =>
        dsimp only
        cases handler message with
        | error e => exact .inr (.inl ⟨message, e, rfl⟩)
        | ok value => exact .inr (.inr ⟨message, value, rfl⟩)

theorem rabbitMq_requeues (h : broker.Lawful) : Requeues (rabbitMq ε ρ broker reader) where
  publish message b := h.publish _ _ b
  empty queueName handler b hempty := by
    rcases @rabbitMq_consume_cases _ _ _ broker reader queueName handler b with
      ⟨hnone, hrun⟩ | ⟨body, hsome, hrun | ⟨m, e, hrun⟩ | ⟨m, v, hrun⟩⟩ <;>
      rw [hrun] at hempty ⊢ <;> cases hempty
    exact h.empty queueName b hnone
  refused queueName handler b item hrefused := by
    rcases @rabbitMq_consume_cases _ _ _ broker reader queueName handler b with
      ⟨hnone, hrun⟩ | ⟨body, hsome, hrun | ⟨m, e, hrun⟩ | ⟨m, v, hrun⟩⟩ <;>
      rw [hrun] at hrefused ⊢ <;> cases hrefused
    exact h.nack queueName b body hsome
  returned queueName handler b item message value hreturned := by
    rcases @rabbitMq_consume_cases _ _ _ broker reader queueName handler b with
      ⟨hnone, hrun⟩ | ⟨body, hsome, hrun | ⟨m, e, hrun⟩ | ⟨m, v, hrun⟩⟩ <;>
      rw [hrun] at hreturned ⊢ <;> cases hreturned
    exact h.ack queueName b body hsome
  raised queueName handler b item message e hraised := by
    rcases @rabbitMq_consume_cases _ _ _ broker reader queueName handler b with
      ⟨hnone, hrun⟩ | ⟨body, hsome, hrun | ⟨m, e, hrun⟩ | ⟨m, v, hrun⟩⟩ <;>
      rw [hrun] at hraised ⊢ <;> cases hraised
    exact h.nack queueName b body hsome

end RabbitMq

/-! ## The law of both adapters -/

/-- In every run on the in-memory adapter the law holds at each point exactly when no
handler raises on its message; on the RabbitMQ adapter it holds at each point of every
run, and the body of a message gives its handler that message. -/
theorem nothing_lost_iff (ε ρ : Type) :
    (∀ operations : List (Operation QueueMessage ε ρ),
      (∀ n, NothingLost (inMemory ε ρ) (run (inMemory ε ρ) ({}, {}) (operations.take n))) ↔
        InMemoryQueue.HandlersReturn {} operations) ∧
    (∀ {B : Type} (broker : Broker B) (reader : Reader) (start : B), broker.Lawful →
      broker.ready start = [] → ∀ (operations : List (Operation QueueMessage ε ρ)) (n : Nat),
        NothingLost (rabbitMq ε ρ broker reader)
          (run (rabbitMq ε ρ broker reader) (start, {}) (operations.take n))) ∧
    ∀ (reader : Reader) (message : QueueMessage), reader.decode (bodyOf message) =
      .ok { message with payload := Json.sortMembers message.payload } := by
  refine ⟨fun operations => ?_,
    fun {B} broker reader start hlawful hempty operations n => ?_, decode_bodyOf⟩
  · rw [inMemory_drops.nothingLost_iff (r := ({}, {})) (List.Perm.refl _) rfl]
    exact inMemory_handlersReturn {} operations
  · refine (rabbitMq_requeues hlawful).nothingLost (r := (start, {})) ?_ _
    change ([] : List (String × Json)).Perm (broker.ready start ++ [])
    rw [hempty]
    exact List.Perm.refl _

/-! ## The worker on both adapters -/

/-- Small report emitted by the worker command. -/
structure WorkerReport where
  processed : Nat
  detail : String

/-- The handler of `RecoveryWorker.run_once`, with the service in some state. -/
def handle (env : Env) (w : World) (message : QueueMessage) : Except Fault WorkerReport :=
  ((processQueueMessage env message).exec w).1.map fun result =>
    ⟨1, "Processed job " ++ result.jobId ++ " with status " ++ result.status ++ "."⟩

/-- A broker that keeps its ready deliveries in a list, and the open one beside it. -/
def listBroker : Broker (List (String × Json) × Option (String × Json)) where
  ready b := b.1
  basicPublish name body b := (b.1 ++ [(name, body)], b.2)
  basicGet name b :=
    match b.1.find? fun d => d.1 = name with
    | some d => (some d.2, b.1.eraseP (fun d => d.1 = name), some d)
    | none => (none, b)
  basicAck b := (b.1, none)
  basicNack requeue b := (if requeue then b.2.toList ++ b.1 else b.1, none)

theorem listBroker_get {name : String} {body : Json}
    {b : List (String × Json) × Option (String × Json)}
    (h : (listBroker.basicGet name b).1 = some body) :
    b.1.Perm ((name, body) :: (listBroker.basicGet name b).2.1) ∧
      (listBroker.basicGet name b).2.2 = some (name, body) := by
  unfold listBroker at h ⊢
  dsimp only at h ⊢
  cases hfind : b.1.find? fun d => d.1 = name with
  | none =>
      rw [hfind] at h
      cases h
  | some d =>
      rw [hfind] at h
      cases h
      obtain ⟨hname, before, after, hsplit, hbefore⟩ := List.find?_eq_some_iff_append.mp hfind
      have hname : d.1 = name := by simpa using hname
      have herase : b.1.eraseP (fun e => decide (e.1 = name)) = before ++ after := by
        rw [hsplit, List.eraseP_append_right _ fun e he => by simpa using hbefore e he,
          List.eraseP_cons_of_pos (by simpa using hname)]
      subst hname
      refine ⟨?_, rfl⟩
      dsimp only
      rw [herase, hsplit]
      exact List.perm_middle

theorem listBroker_lawful : listBroker.Lawful where
  publish name body b := List.perm_append_singleton _ _
  empty name b h := by
    unfold listBroker at h ⊢
    dsimp only at h ⊢
    cases hfind : b.1.find? fun d => d.1 = name with
    | none => exact List.Perm.refl _
    | some d =>
        rw [hfind] at h
        cases h
  ack name b body h := (listBroker_get h).1
  nack name b body h := by
    obtain ⟨hperm, hopen⟩ := listBroker_get h
    change ((listBroker.basicGet name b).2.2.toList ++ (listBroker.basicGet name b).2.1).Perm b.1
    rw [hopen]
    exact hperm.symm

/-- The host of the worker: nothing else than texts is converted. -/
def plainReader : Reader := ⟨fun _ => "", fun _ => none, .utc 63842385600000000⟩

/-- A message is published, and the worker takes it while SAT is unreachable. -/
def failedDelivery : List (Operation QueueMessage Fault WorkerReport) :=
  [.publish januaryMessage, .consume "sat.request" (handle unreachableSat (sampleWorld pendingJobDb))]

theorem nothing_lost_iff_sample :
    NothingLost (rabbitMq Fault WorkerReport listBroker plainReader)
      (run (rabbitMq Fault WorkerReport listBroker plainReader) (([], none), {})
        (failedDelivery.take 2)) :=
  (nothing_lost_iff Fault WorkerReport).2.1 listBroker plainReader ([], none) listBroker_lawful rfl
    failedDelivery 2

/-- SAT is unreachable while the worker holds the message, and the in-memory queue has
lost it. -/
theorem inMemory_loses_message :
    ¬ ∀ (operations : List (Operation QueueMessage Fault WorkerReport)) (n : Nat),
      NothingLost (inMemory Fault WorkerReport)
        (run (inMemory Fault WorkerReport) ({}, {}) (operations.take n)) := by
  intro h
  exact absurd (h failedDelivery 2).length_eq (by decide +kernel)

end Recovery

end CfdiVault
