import VpnPanel.Worker.RabbitQueue

/-!
# Which messages are settled

A delivery is acknowledged where its body is a command and its header a count.
Any other raises outside the guarded block and stays with the broker. A command
whose handler never returns is tried the number of times the policy allows, and
ends in the poison queue.
-/

namespace VpnPanel.Theorems

open VpnPanel.Backend VpnPanel.Worker.RabbitQueue
open VpnPanel.Worker hiding handleMessage retryOrDeadLetter

/-! ## Routes -/

/-- A delay queue hands over to the command's queue. -/
theorem destination_retry (command : CommandName) {delay : String × Nat}
    (h : delay ∈ RETRY_DELAYS) :
    destination DEAD_LETTER_EXCHANGE s!"{commandQueue command}.retry.{delay.1}" =
      [commandQueue command] := by
  have hall : ∀ spec ∈ QUEUE_SPECS, ∀ delay ∈ RETRY_DELAYS,
      destination DEAD_LETTER_EXCHANGE s!"{commandQueue spec.command}.retry.{delay.1}" =
        [commandQueue spec.command] := by
    decide +kernel
  cases hspec : QUEUE_SPECS.find? (·.command = command) with
  | none => cases command <;> cases hspec
  | some spec =>
      have hcommand : spec.command = command := by simpa using List.find?_some hspec
      rw [← hcommand]
      exact hall spec (List.mem_of_find?_eq_some hspec) delay h

theorem destination_poison : destination DEAD_LETTER_EXCHANGE POISON_QUEUE = [POISON_QUEUE] := by
  decide +kernel

/-! ## Bodies -/

variable {wire : Wire} {policy : RetryPolicy} {message : RabbitQueue.Delivery}
  {command : WorkerCommand}

theorem fromUTF8?_toUTF8 (text : String) : String.fromUTF8? text.toUTF8 = some text := by
  unfold String.fromUTF8?
  rw [String.toUTF8_eq_toByteArray, dif_pos text.isValidUTF8]
  rfl

theorem validateTargetType_some {command valid : WorkerCommand}
    (h : validateTargetType command = some valid) : validateTargetType valid = some valid := by
  have hcopy := h
  unfold validateTargetType at hcopy
  split at hcopy
  · cases hcopy
  · cases hcopy
    exact h

/-- The command of a body is one that `validate_target_type` lets through. -/
theorem decode_valid {body : ByteArray} (h : wire.decode body = some command) :
    validateTargetType command = some command := by
  unfold Wire.decode at h
  obtain ⟨text, -, h⟩ := Option.bind_eq_some_iff.mp h
  obtain ⟨json, -, h⟩ := Option.bind_eq_some_iff.mp h
  obtain ⟨fields, -, h⟩ := Option.bind_eq_some_iff.mp h
  exact validateTargetType_some h

/-- The fields of a command are read back from its JSON. -/
def ReadsBack (wire : Wire) (command : WorkerCommand) : Prop :=
  (wire.loads (wire.modelDumpJson command)).bind wire.modelFields = some command

theorem decode_encode (hread : ReadsBack wire command)
    (hvalid : validateTargetType command = some command) :
    wire.decode (wire.encode command) = some command := by
  obtain ⟨json, hloads, hfields⟩ := Option.bind_eq_some_iff.mp hread
  unfold Wire.decode Wire.encode
  rw [fromUTF8?_toUTF8]
  show (wire.loads _).bind _ = _
  rw [hloads]
  show (wire.modelFields _).bind _ = _
  rw [hfields]
  exact hvalid

/-! ## The attempts -/

theorem index_some {α : Type} {xs : List α} {i : Int} (hlow : -xs.length ≤ i)
    (hhigh : i < xs.length) : ∃ x ∈ xs, index xs i = some x := by
  unfold index
  by_cases hi : 0 ≤ i
  · have hlt : i.toNat < xs.length := by omega
    rw [if_pos hi, List.getElem?_eq_getElem hlt]
    exact ⟨_, List.getElem_mem hlt, rfl⟩
  · have hlt : (xs.length + i).toNat < xs.length := by omega
    rw [if_neg hi, if_pos hlow, List.getElem?_eq_getElem hlt]
    exact ⟨_, List.getElem_mem hlt, rfl⟩

theorem index_none {α : Type} {xs : List α} {i : Int} (h : i < -xs.length) :
    index xs i = none := by
  unfold index
  rw [if_neg (by omega), if_neg (by omega)]

/-- The number of attempts before the delivery, `none` where `int` raises. -/
def attemptsBefore (message : RabbitQueue.Delivery) : Option Int := message.retryCount.getD (some 0)

theorem retryOrDeadLetter_poison {count : Int} (hcount : attemptsBefore message = some count)
    (h : policy.maxAttempts ≤ count + 1) :
    retryOrDeadLetter wire policy command message =
      some (publishAgain wire command POISON_QUEUE (count + 1)) := by
  unfold attemptsBefore at hcount
  unfold retryOrDeadLetter
  rw [hcount]
  exact if_pos h

theorem retryOrDeadLetter_retry (wire : Wire) (command : WorkerCommand) {count : Int}
    (hcount : attemptsBefore message = some count)
    (h : ¬policy.maxAttempts ≤ count + 1) (hlow : -3 ≤ count) :
    ∃ delay ∈ RETRY_DELAYS, retryOrDeadLetter wire policy command message =
      some (publishAgain wire command s!"{commandQueue command.command}.retry.{delay.1}"
        (count + 1)) := by
  have hlength : (RETRY_DELAYS.length : Int) = 3 := rfl
  have hindex : ∃ delay ∈ RETRY_DELAYS,
      index RETRY_DELAYS (min (count + 1 - 1) (RETRY_DELAYS.length - 1)) = some delay :=
    index_some (by omega) (by omega)
  obtain ⟨delay, hmem, hdelay⟩ := hindex
  refine ⟨delay, hmem, ?_⟩
  unfold attemptsBefore at hcount
  unfold retryOrDeadLetter
  rw [hcount]
  refine (if_neg h).trans ?_
  rw [hdelay]
  show (retryQueueName command.command delay.1).bind _ = _
  rw [retryQueueName_eq]
  rfl

/-- `RETRY_DELAYS` has no entry that far from its end. -/
theorem retryOrDeadLetter_low {count : Int} (hcount : attemptsBefore message = some count)
    (h : ¬policy.maxAttempts ≤ count + 1) (hlow : ¬-3 ≤ count) :
    retryOrDeadLetter wire policy command message = none := by
  have hlength : (RETRY_DELAYS.length : Int) = 3 := rfl
  have hindex : index RETRY_DELAYS (min (count + 1 - 1) (RETRY_DELAYS.length - 1)) = none :=
    index_none (by omega)
  unfold attemptsBefore at hcount
  unfold retryOrDeadLetter
  rw [hcount]
  refine (if_neg h).trans ?_
  rw [hindex]
  rfl

/-- The header is a count, and either the last attempt's or one that a delay
belongs to. -/
def Counted (policy : RetryPolicy) (message : RabbitQueue.Delivery) : Prop :=
  ∃ count, attemptsBefore message = some count ∧ (-3 ≤ count ∨ policy.maxAttempts ≤ count + 1)

theorem retryOrDeadLetter_isSome :
    (retryOrDeadLetter wire policy command message).isSome ↔ Counted policy message := by
  cases hcount : attemptsBefore message with
  | none =>
      have hraises : retryOrDeadLetter wire policy command message = none := by
        unfold attemptsBefore at hcount
        unfold retryOrDeadLetter
        rw [hcount]
        rfl
      rw [hraises]
      refine iff_of_false Bool.false_ne_true ?_
      rintro ⟨count, hsome, -⟩
      cases hcount.symm.trans hsome
  | some count =>
      by_cases hlast : policy.maxAttempts ≤ count + 1
      · rw [retryOrDeadLetter_poison hcount hlast]
        exact iff_of_true rfl ⟨count, hcount, .inr hlast⟩
      · by_cases hlow : -3 ≤ count
        · obtain ⟨delay, -, hretry⟩ := retryOrDeadLetter_retry wire command hcount hlast hlow
          rw [hretry]
          exact iff_of_true rfl ⟨count, hcount, .inl hlow⟩
        · rw [retryOrDeadLetter_low hcount hlast hlow]
          refine iff_of_false Bool.false_ne_true ?_
          rintro ⟨other, hsome, hother⟩
          cases hcount.symm.trans hsome
          exact hother.elim hlow hlast

/-! ## One delivery -/

section

variable {handler : WorkerCommand → Except String Unit}

theorem handleMessage_unread (h : wire.decode message.body = none) :
    handleMessage wire policy handler message = { acked := false } := by
  unfold handleMessage
  rw [h]

theorem handleMessage_returned {value : Unit} (h : wire.decode message.body = some command)
    (hhandler : handler command = .ok value) :
    handleMessage wire policy handler message = { ran := [command], acked := true } := by
  unfold handleMessage
  rw [h]
  dsimp only
  rw [hhandler]

theorem handleMessage_raised {error : String} (h : wire.decode message.body = some command)
    (hhandler : handler command = .error error) :
    handleMessage wire policy handler message = {
      ran := [command]
      published := (retryOrDeadLetter wire policy command message).toList
      acked := (retryOrDeadLetter wire policy command message).isSome } := by
  unfold handleMessage
  rw [h]
  dsimp only
  rw [hhandler]
  cases retryOrDeadLetter wire policy command message <;> rfl

theorem published_length (wire : Wire) (policy : RetryPolicy)
    (handler : WorkerCommand → Except String Unit) (message : RabbitQueue.Delivery) :
    (handleMessage wire policy handler message).published.length ≤ 1 := by
  cases h : wire.decode message.body with
  | none =>
      rw [handleMessage_unread h]
      exact Nat.zero_le 1
  | some command =>
      cases hhandler : handler command with
      | ok value =>
          rw [handleMessage_returned h hhandler]
          exact Nat.zero_le 1
      | error error =>
          rw [handleMessage_raised h hhandler]
          exact Option.length_toList_le

end

/-- A delivery is acknowledged whatever its handler does. -/
theorem acked_iff (wire : Wire) (policy : RetryPolicy) (message : RabbitQueue.Delivery) :
    (∀ handler, (handleMessage wire policy handler message).acked = true) ↔
      (wire.decode message.body).isSome ∧ Counted policy message := by
  cases h : wire.decode message.body with
  | none =>
      refine iff_of_false (fun hall => ?_) (fun hsome => absurd hsome.1 Bool.false_ne_true)
      have hacked := hall fun _ => .ok ()
      rw [handleMessage_unread h] at hacked
      cases hacked
  | some command =>
      constructor
      · intro hall
        have hacked := hall fun _ => .error "error"
        rw [handleMessage_raised h rfl] at hacked
        exact ⟨rfl, retryOrDeadLetter_isSome.mp hacked⟩
      · rintro ⟨-, hcounted⟩ handler
        cases hhandler : handler command with
        | ok value => rw [handleMessage_returned h hhandler]
        | error error =>
            rw [handleMessage_raised h hhandler]
            exact retryOrDeadLetter_isSome.mpr hcounted

/-! ## A handler that always raises -/

def AlwaysRaises (handler : Nat → WorkerCommand → Except String Unit) (command : WorkerCommand) :
    Prop := ∀ n, ∃ error, handler n command = .error error

/-- The deliveries are over: the handler ran once for each attempt, one copy is
in the poison queue, and what was published was the command, to come back to
its queue or to end up with the poison. -/
structure Exhausted (wire : Wire) (policy : RetryPolicy) (command : WorkerCommand)
    (journey : Journey) : Prop where
  spent : journey.waiting = []
  settled : journey.unacked = []
  ran : journey.ran = List.replicate policy.maxAttempts command
  poisoned : ∃ copy, journey.poison = [copy] ∧ wire.decode copy.body = some command
  followUps : ∀ publication ∈ journey.published,
    wire.decode publication.message.body = some command ∧
      (destination publication.exchange publication.routingKey = [commandQueue command.command] ∨
        destination publication.exchange publication.routingKey = [POISON_QUEUE])

/-- After `n` attempts the next one waits. -/
structure Retrying (wire : Wire) (command : WorkerCommand) (n : Nat) (journey : Journey) :
    Prop where
  waiting : ∃ queue message, journey.waiting = [(queue, message)] ∧
    wire.decode message.body = some command ∧ attemptsBefore message = some (n : Int)
  settled : journey.unacked = []
  ran : journey.ran = List.replicate n command
  unpoisoned : journey.poison = []
  followUps : ∀ publication ∈ journey.published,
    wire.decode publication.message.body = some command ∧
      destination publication.exchange publication.routingKey = [commandQueue command.command]

variable {handler : Nat → WorkerCommand → Except String Unit} {journey : Journey} {n : Nat}

theorem commandQueue_ne_poison (command : CommandName) : commandQueue command ≠ POISON_QUEUE := by
  cases command <;> decide

/-- The attempt that a waiting message stands for. -/
theorem nextDelivery_raised {queue : String} {publication : Publication}
    (hwaiting : journey.waiting = [(queue, message)])
    (hdecode : wire.decode message.body = some command) (hhandler : AlwaysRaises handler command)
    (hretry : retryOrDeadLetter wire policy command message = some publication) :
    nextDelivery wire policy handler journey =
      arrive { journey with waiting := [], ran := journey.ran ++ [command] } publication := by
  obtain ⟨error, herror⟩ := hhandler journey.ran.length
  unfold nextDelivery
  rw [hwaiting]
  dsimp only
  rw [handleMessage_raised hdecode herror, hretry]
  rfl

theorem arrive_queue {publication : Publication} {queue : String}
    (h : destination publication.exchange publication.routingKey = [queue])
    (hne : queue ≠ POISON_QUEUE) :
    arrive journey publication = { journey with
      waiting := journey.waiting ++ [(queue, publication.message)]
      published := journey.published ++ [publication] } := by
  unfold arrive
  rw [h]
  simp [hne]

theorem arrive_poison {publication : Publication}
    (h : destination publication.exchange publication.routingKey = [POISON_QUEUE]) :
    arrive journey publication = { journey with
      poison := journey.poison ++ [publication.message]
      published := journey.published ++ [publication] } := by
  unfold arrive
  rw [h]
  simp

theorem Retrying.next (h : Retrying wire command n journey)
    (hhandler : AlwaysRaises handler command)
    (hread : wire.decode (wire.encode command) = some command) (hn : n + 1 < policy.maxAttempts) :
    Retrying wire command (n + 1) (nextDelivery wire policy handler journey) := by
  obtain ⟨queue, message, hwaiting, hdecode, hcount⟩ := h.waiting
  have hmore : ¬(policy.maxAttempts : Int) ≤ n + 1 := by omega
  obtain ⟨delay, hdelay, hretry⟩ := retryOrDeadLetter_retry wire command hcount hmore (by omega)
  let publication := publishAgain wire command
    s!"{commandQueue command.command}.retry.{delay.1}" (n + 1)
  have hdestination : destination publication.exchange publication.routingKey =
      [commandQueue command.command] := destination_retry command.command hdelay
  rw [nextDelivery_raised hwaiting hdecode hhandler hretry,
    arrive_queue hdestination (commandQueue_ne_poison command.command)]
  refine {
    waiting := ⟨_, publication.message, rfl, hread, rfl⟩
    settled := h.settled
    ran := ?_
    unpoisoned := h.unpoisoned
    followUps := fun publication hmem => ?_ }
  · show journey.ran ++ [command] = _
    rw [h.ran, ← List.replicate_succ']
  · rcases List.mem_append.mp hmem with hmem | hmem
    · exact h.followUps publication hmem
    · rw [List.mem_singleton.mp hmem]
      exact ⟨hread, hdestination⟩

theorem Retrying.last (h : Retrying wire command n journey)
    (hhandler : AlwaysRaises handler command)
    (hread : wire.decode (wire.encode command) = some command) (hn : n + 1 = policy.maxAttempts) :
    Exhausted wire policy command (nextDelivery wire policy handler journey) := by
  obtain ⟨queue, message, hwaiting, hdecode, hcount⟩ := h.waiting
  have hlast : (policy.maxAttempts : Int) ≤ n + 1 := by omega
  let publication := publishAgain wire command POISON_QUEUE (n + 1)
  have hpoison : destination publication.exchange publication.routingKey = [POISON_QUEUE] :=
    destination_poison
  rw [nextDelivery_raised hwaiting hdecode hhandler (retryOrDeadLetter_poison hcount hlast),
    arrive_poison hpoison]
  refine {
    spent := rfl
    settled := h.settled
    ran := ?_
    poisoned := ⟨publication.message, ?_, hread⟩
    followUps := fun publication hmem => ?_ }
  · show journey.ran ++ [command] = _
    rw [h.ran, ← hn, ← List.replicate_succ']
  · show journey.poison ++ _ = _
    rw [h.unpoisoned]
    rfl
  · rcases List.mem_append.mp hmem with hmem | hmem
    · exact ⟨(h.followUps publication hmem).1, .inl (h.followUps publication hmem).2⟩
    · rw [List.mem_singleton.mp hmem]
      exact ⟨hread, .inr destination_poison⟩

theorem Exhausted.next (h : Exhausted wire policy command journey) :
    Exhausted wire policy command (nextDelivery wire policy handler journey) := by
  unfold nextDelivery
  rw [h.spent]
  exact h

theorem retrying_deliveries (hdecode : wire.decode message.body = some command)
    (hhandler : AlwaysRaises handler command)
    (hread : wire.decode (wire.encode command) = some command) (queue : String)
    (hn : n < policy.maxAttempts) :
    Retrying wire command n
      (RabbitQueue.deliveries wire policy handler queue { body := message.body } n) := by
  induction n with
  | zero =>
      exact {
        waiting := ⟨queue, _, rfl, hdecode, rfl⟩
        settled := rfl
        ran := rfl
        unpoisoned := rfl
        followUps := fun _ hmem => absurd hmem List.not_mem_nil }
  | succ n ih => exact (ih (by omega)).next hhandler hread hn

theorem exhausted_deliveries (hdecode : wire.decode message.body = some command)
    (hhandler : AlwaysRaises handler command)
    (hread : wire.decode (wire.encode command) = some command) (queue : String)
    (hpolicy : 0 < policy.maxAttempts) (hn : policy.maxAttempts ≤ n) :
    Exhausted wire policy command
      (RabbitQueue.deliveries wire policy handler queue { body := message.body } n) := by
  induction n, hn using Nat.le_induction with
  | base =>
      obtain ⟨last, hlast⟩ := Nat.exists_eq_add_one.mpr hpolicy
      rw [hlast]
      exact (retrying_deliveries hdecode hhandler hread queue (by omega)).last hhandler hread
        hlast.symm
  | succ n hn ih => exact ih.next

/-! ## Settlement -/

/-- What `_handle_message` is to do with a delivery, and the deliveries after it
with a command whose handler always raises. -/
structure Settles (wire : Wire) (policy : RetryPolicy) (message : RabbitQueue.Delivery) : Prop where
  acked : ∀ handler, (handleMessage wire policy handler message).acked = true
  followUp : ∀ handler, (handleMessage wire policy handler message).published.length ≤ 1
  exhausted : ∀ command, wire.decode message.body = some command →
    ∀ handler, AlwaysRaises handler command → ∀ queue n, policy.maxAttempts ≤ n →
      Exhausted wire policy command
        (RabbitQueue.deliveries wire policy handler queue { body := message.body } n)

/-- The body is a command, the header a count, and there is an attempt to make. -/
structure Settleable (wire : Wire) (policy : RetryPolicy) (message : RabbitQueue.Delivery) :
    Prop where
  readable : (wire.decode message.body).isSome
  counted : Counted policy message
  attempts : 0 < policy.maxAttempts

/-- Exactly such deliveries are settled. -/
theorem settles_iff (wire : Wire) (policy : RetryPolicy) (message : RabbitQueue.Delivery)
    (hread : ∀ command, wire.decode message.body = some command → ReadsBack wire command) :
    Settles wire policy message ↔ Settleable wire policy message := by
  constructor
  · intro h
    obtain ⟨hreadable, hcounted⟩ := (acked_iff wire policy message).mp h.acked
    refine ⟨hreadable, hcounted, Nat.pos_of_ne_zero fun hzero => ?_⟩
    obtain ⟨command, hdecode⟩ := Option.isSome_iff_exists.mp hreadable
    -- no attempt is ever enough: the message still waits
    have hover := (h.exhausted command hdecode (fun _ _ => .error "error") (fun _ => ⟨_, rfl⟩) ""
      0 hzero.le).spent
    cases hover
  · intro h
    exact {
      acked := (acked_iff wire policy message).mpr ⟨h.readable, h.counted⟩
      followUp := fun handler => published_length wire policy handler message
      exhausted := fun command hdecode handler hhandler queue n hn =>
        exhausted_deliveries hdecode hhandler
          (decode_encode (hread command hdecode) (decode_valid hdecode)) queue h.attempts hn }

def syncAllCommand : WorkerCommand where
  command := .syncAll
  idempotencyKey := 1
  operationId := 2
  trackOperation := false
  targetType := .all
  targetId := none
  createdAt := 0

def syncAllJson : String :=
  "\x7b\"command\":\"sync_all\",\"idempotency_key\":\"1\",\"operation_id\":\"2\"," ++
    "\"track_operation\":false,\"target_type\":\"all\",\"target_id\":null," ++
    "\"created_at\":\"1970-01-01T00:00:00Z\"\x7d"

/-- JSON as far as one command goes. -/
def syncAllWire : Wire where
  Json := Unit
  loads text := if text = syncAllJson then some () else none
  modelFields _ := some syncAllCommand
  modelDumpJson command := if command = syncAllCommand then syncAllJson else ""

def syncAllMessage : RabbitQueue.Delivery where
  body := syncAllWire.encode syncAllCommand

theorem syncAllWire_dumps : syncAllWire.modelDumpJson syncAllCommand = syncAllJson := by
  unfold syncAllWire
  dsimp only
  rw [if_pos rfl]

theorem syncAllWire_readsBack : ReadsBack syncAllWire syncAllCommand := by
  unfold ReadsBack
  rw [syncAllWire_dumps]
  unfold syncAllWire
  dsimp only
  rw [if_pos rfl]
  rfl

theorem syncAllWire_decodes :
    syncAllWire.decode syncAllMessage.body = some syncAllCommand :=
  decode_encode syncAllWire_readsBack rfl

theorem settles_iff_syncAll : Settles syncAllWire {} syncAllMessage := by
  refine (settles_iff syncAllWire {} syncAllMessage fun command hcommand => ?_).mpr {
    readable := ?_
    counted := ⟨0, rfl, .inl (by decide)⟩
    attempts := by decide }
  · cases syncAllWire_decodes.symm.trans hcommand
    exact syncAllWire_readsBack
  · rw [syncAllWire_decodes]
    rfl

/-- An empty message raises before the guarded block. -/
theorem settles_not_empty : ¬Settles syncAllWire {} { body := ⟨#[]⟩ } := by
  intro h
  have hacked := h.acked fun _ => .ok ()
  rw [handleMessage_unread (by decide)] at hacked
  cases hacked

end VpnPanel.Theorems
