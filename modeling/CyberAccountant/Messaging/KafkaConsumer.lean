import CyberAccountant.Library.Transition
import Mathlib.Logic.Function.Basic
import Mathlib.Data.List.Basic

/-! The loop of the Kafka consumer.  A message whose callback has returned is committed; one whose
callback has thrown is left uncommitted until it is given up as poison.  The broker hands out the messages
of a partition in the order of their offsets, and after a restart from the committed offset on. -/

namespace CyberAccountant.Messaging

open CyberAccountant.Library

variable {Partition : Type} [DecidableEq Partition]

/-- A call of the callback: whether it has returned for the message of that offset or thrown. -/
structure Call (Partition : Type) where
  partition : Partition
  offset : Nat
  returned : Bool
  deriving DecidableEq

def kMaxPoisonAttempts : Nat := 5

structure KafkaConsumer (Partition : Type) where
  /-- The offsets that the broker keeps for the group. -/
  committed : Partition → Nat
  position : Partition → Nat
  poisonOffset : Int
  poisonCount : Nat
  /-- The calls of the callback, oldest first. -/
  calls : List (Call Partition)
  /-- Those since the last start. -/
  session : List (Call Partition)

/-- The callback has thrown that many times for a message. -/
def failures (calls : List (Call Partition)) (p : Partition) (offset : Nat) : Nat :=
  calls.count ⟨p, offset, false⟩

/-- The callback has returned for a message once, or thrown for it as often as the bound says. -/
def Settled (calls : List (Call Partition)) (p : Partition) (offset : Nat) : Prop :=
  ⟨p, offset, true⟩ ∈ calls ∨ kMaxPoisonAttempts ≤ failures calls p offset

namespace KafkaConsumer

def start : KafkaConsumer Partition where
  committed := fun _ => 0
  position := fun _ => 0
  poisonOffset := -1
  poisonCount := 0
  calls := []
  session := []

/-- `poison_offset_` and `poison_count_` after a failure. -/
def poisoned (s : KafkaConsumer Partition) (offset : Nat) : Int × Nat :=
  if (offset : Int) = s.poisonOffset then (s.poisonOffset, s.poisonCount + 1) else ((offset : Int), 1)

def commits (s : KafkaConsumer Partition) (offset : Nat) (returned : Bool) : Bool :=
  returned || decide (kMaxPoisonAttempts ≤ (s.poisoned offset).2)

/-- `commitSync` of a message, which may fail. -/
def commitSync (s : KafkaConsumer Partition) (p : Partition) (offset : Nat) (commitOk : Bool) :
    KafkaConsumer Partition :=
  if commitOk then { s with committed := Function.update s.committed p (offset + 1) } else s

/-- One round of `start_consuming` on a message. -/
def receive (s : KafkaConsumer Partition) (p : Partition) (offset : Nat) (returned commitOk : Bool) :
    KafkaConsumer Partition :=
  let call : Call Partition := ⟨p, offset, returned⟩
  let called := { s with
    position := Function.update s.position p (offset + 1)
    calls := s.calls ++ [call]
    session := s.session ++ [call] }
  if returned then
    { called with poisonOffset := -1, poisonCount := 0 }.commitSync p offset commitOk
  else if kMaxPoisonAttempts ≤ (s.poisoned offset).2 then
    { called.commitSync p offset commitOk with poisonOffset := -1, poisonCount := 0 }
  else
    { called with poisonOffset := (s.poisoned offset).1, poisonCount := (s.poisoned offset).2 }

def restart (s : KafkaConsumer Partition) : KafkaConsumer Partition where
  committed := s.committed
  position := s.committed
  poisonOffset := -1
  poisonCount := 0
  calls := s.calls
  session := []

/-- The next message that `consume` returns of a partition. -/
def Next (log : Partition → Nat → Prop) (s : KafkaConsumer Partition) (p : Partition) (offset : Nat) :
    Prop :=
  log p offset ∧ s.position p ≤ offset ∧ ∀ o, log p o → s.position p ≤ o → offset ≤ o

/-- Neither the earlier messages of the partition for which the callback has thrown since the last start
nor, where it has just thrown for it, the message itself is still owed. -/
def NothingOwed (s : KafkaConsumer Partition) (p : Partition) (offset : Nat) (returned : Bool) : Prop :=
  (∀ o, ⟨p, o, false⟩ ∈ s.session → Settled s.calls p o) ∧
    (returned = false →
      ⟨p, offset, true⟩ ∈ s.calls ∨ kMaxPoisonAttempts ≤ failures s.calls p offset + 1)

/-- At-least-once up to the poison bound: a committed offset has passed settled messages only. -/
def AtLeastOnce (log : Partition → Nat → Prop) (s : KafkaConsumer Partition) : Prop :=
  ∀ p offset, log p offset → offset < s.committed p → Settled s.calls p offset

end KafkaConsumer

open KafkaConsumer

/-- A round on a message or a restart; `May` restricts the commits that take effect. -/
inductive ConsumerStep (log : Partition → Nat → Prop)
    (May : KafkaConsumer Partition → Partition → Nat → Bool → Prop) :
    KafkaConsumer Partition → KafkaConsumer Partition → Prop where
  | receive (s : KafkaConsumer Partition) (p : Partition) (offset : Nat) (returned commitOk : Bool)
      (hNext : s.Next log p offset)
      (hMay : s.commits offset returned = true → commitOk = true → May s p offset returned) :
      ConsumerStep log May s (s.receive p offset returned commitOk)
  | restart (s : KafkaConsumer Partition) : ConsumerStep log May s s.restart

/-! ### One round -/

section Round

variable {log : Partition → Nat → Prop} {s : KafkaConsumer Partition} {p : Partition} {offset : Nat}
  {returned commitOk : Bool}

theorem Settled.append {calls : List (Call Partition)} (h : Settled calls p offset)
    (more : List (Call Partition)) : Settled (calls ++ more) p offset := by
  rcases h with hReturned | hFailed
  · exact .inl (List.mem_append_left more hReturned)
  · right
    unfold failures
    rw [List.count_append]
    exact Nat.le_add_right_of_le hFailed

theorem receive_fields (s : KafkaConsumer Partition) (p : Partition) (offset : Nat)
    (returned commitOk : Bool) :
    (s.receive p offset returned commitOk).position = Function.update s.position p (offset + 1) ∧
    (s.receive p offset returned commitOk).calls = s.calls ++ [⟨p, offset, returned⟩] ∧
    (s.receive p offset returned commitOk).session = s.session ++ [⟨p, offset, returned⟩] ∧
    (s.receive p offset returned commitOk).committed =
      if s.commits offset returned && commitOk then Function.update s.committed p (offset + 1)
      else s.committed := by
  unfold receive commits commitSync
  cases returned <;> cases commitOk <;> by_cases hPoison : kMaxPoisonAttempts ≤ (s.poisoned offset).2 <;>
    simp [hPoison]

/-- What a consumer relies on: committed messages are settled, and a message that it has passed since the
last start is settled or among the failures since then. -/
structure ConsumerOk (log : Partition → Nat → Prop) (s : KafkaConsumer Partition) : Prop where
  delivered : s.AtLeastOnce log
  received : ∀ p offset, log p offset → offset < s.position p →
    Settled s.calls p offset ∨ ⟨p, offset, false⟩ ∈ s.session

theorem consumerOk_start : ConsumerOk log (start : KafkaConsumer Partition) := by
  constructor
  · intro p offset _ hCommitted
    exact absurd hCommitted (Nat.not_lt_zero offset)
  · intro p offset _ hPassed
    exact absurd hPassed (Nat.not_lt_zero offset)

theorem ConsumerOk.restart (hOk : ConsumerOk log s) : ConsumerOk log s.restart where
  delivered := hOk.delivered
  received p offset hLog hPassed := .inl (hOk.delivered p offset hLog hPassed)

/-- The messages before the next position after a round on `offset`. -/
theorem ConsumerOk.passed (hOk : ConsumerOk log s) (hNext : s.Next log p offset) (returned : Bool)
    {o : Nat} (hLog : log p o) (hPassed : o < offset + 1) :
    Settled (s.calls ++ [⟨p, offset, returned⟩]) p o ∨
      ⟨p, o, false⟩ ∈ s.session ++ [⟨p, offset, returned⟩] := by
  obtain ⟨-, hFrom, hFirst⟩ := hNext
  by_cases hOld : o < s.position p
  · rcases hOk.received p o hLog hOld with hSettled | hFailed
    · exact .inl (hSettled.append _)
    · exact .inr (List.mem_append_left _ hFailed)
  · obtain rfl : offset = o := Nat.le_antisymm (hFirst o hLog (by omega)) (by omega)
    cases returned with
    | true => exact .inl (.inl (List.mem_append_right _ List.mem_cons_self))
    | false => exact .inr (List.mem_append_right _ List.mem_cons_self)

theorem settled_thrown {calls : List (Call Partition)}
    (h : ⟨p, offset, true⟩ ∈ calls ∨ kMaxPoisonAttempts ≤ failures calls p offset + 1) :
    Settled (calls ++ [⟨p, offset, false⟩]) p offset := by
  rcases h with hReturned | hFailed
  · exact .inl (List.mem_append_left _ hReturned)
  · right
    unfold failures at hFailed ⊢
    rw [List.count_append, List.count_singleton_self]
    exact hFailed

theorem ConsumerOk.receive (hOk : ConsumerOk log s) (hNext : s.Next log p offset)
    (hMay : s.commits offset returned = true → commitOk = true → s.NothingOwed p offset returned) :
    ConsumerOk log (s.receive p offset returned commitOk) := by
  obtain ⟨hPosition, hCalls, hSession, hCommitted⟩ := receive_fields s p offset returned commitOk
  constructor
  · intro q o hLog hPast
    rw [hCommitted] at hPast
    rw [hCalls]
    split at hPast
    · rename_i hCommits
      obtain ⟨hSync, hTakes⟩ := Bool.and_eq_true_iff.mp hCommits
      obtain ⟨hEarlier, hItself⟩ := hMay hSync hTakes
      by_cases hHere : q = p
      · subst hHere
        rw [Function.update_self] at hPast
        rcases hOk.passed hNext returned hLog hPast with hSettled | hFailed
        · exact hSettled
        · rcases List.mem_append.mp hFailed with hOld | hNew
          · exact (hEarlier o hOld).append _
          · obtain ⟨rfl, rfl⟩ : o = offset ∧ returned = false := by simpa [eq_comm] using hNew
            exact settled_thrown (hItself rfl)
      · rw [Function.update_of_ne hHere] at hPast
        exact (hOk.delivered q o hLog hPast).append _
    · exact (hOk.delivered q o hLog hPast).append _
  · intro q o hLog hPassed
    rw [hPosition] at hPassed
    rw [hCalls, hSession]
    by_cases hHere : q = p
    · subst hHere
      rw [Function.update_self] at hPassed
      exact hOk.passed hNext returned hLog hPassed
    · rw [Function.update_of_ne hHere] at hPassed
      rcases hOk.received q o hLog hPassed with hSettled | hFailed
      · exact .inl (hSettled.append _)
      · exact .inr (List.mem_append_left _ hFailed)

theorem ConsumerOk.step (s s' : KafkaConsumer Partition) (hOk : ConsumerOk log s)
    (hStep : ConsumerStep log NothingOwed s s') : ConsumerOk log s' := by
  cases hStep with
  | receive p offset returned commitOk hNext hMay => exact hOk.receive hNext hMay
  | restart => exact hOk.restart

/-- A commit that takes effect while something is owed breaks the promise. -/
theorem not_atLeastOnce_of_owed {o : Nat} (hLog : log p o) (hBefore : o < offset)
    (hOwed : ¬Settled s.calls p o) (hCommits : s.commits offset returned = true) :
    ¬(s.receive p offset returned true).AtLeastOnce log := by
  obtain ⟨-, hCalls, -, hCommitted⟩ := receive_fields s p offset returned true
  intro hDelivered
  have hSettled := hDelivered p o hLog (by
    rw [hCommitted, hCommits, Bool.and_self, if_pos rfl, Function.update_self]
    omega)
  rw [hCalls] at hSettled
  rcases hSettled with hReturned | hFailed
  · rcases List.mem_append.mp hReturned with hOld | hNew
    · exact hOwed (.inl hOld)
    · obtain ⟨rfl, -⟩ : o = offset ∧ returned = true := by simpa [eq_comm] using hNew
      exact Nat.lt_irrefl o hBefore
  · apply hOwed
    right
    unfold failures at hFailed ⊢
    have hOther : (⟨p, o, false⟩ : Call Partition) ≠ ⟨p, offset, returned⟩ := by
      intro hEq
      exact absurd (congrArg Call.offset hEq) (Nat.ne_of_lt hBefore)
    rw [List.count_append, List.count_singleton, if_neg (by simpa using hOther.symm)] at hFailed
    exact hFailed

end Round

def twoMessages : Unit → Nat → Prop := fun _ offset => offset < 2

theorem next_zero : (start : KafkaConsumer Unit).Next twoMessages () 0 :=
  ⟨Nat.zero_lt_two, Nat.le_refl 0, fun o _ _ => Nat.zero_le o⟩

theorem next_one (returned commitOk : Bool) :
    ((start : KafkaConsumer Unit).receive () 0 returned commitOk).Next twoMessages () 1 := by
  have hPosition := (receive_fields (start : KafkaConsumer Unit) () 0 returned commitOk).1
  refine ⟨Nat.one_lt_two, ?_, fun o _ hFrom => ?_⟩
  · rw [hPosition]
    exact Nat.le_refl 1
  · rw [hPosition] at hFrom
    exact hFrom

end CyberAccountant.Messaging
