import Exasphere.Lib.Queue
import Mathlib.Data.Nat.ModEq
import Mathlib.Logic.Function.Basic

/-!
# The ring buffer between collector and pipeline (`include/xsprof/ring_buffer.hpp`)

One producer calls `push` and one consumer calls `pop`. Each call is four steps, and a schedule says which party takes
the next one; the atomics are sequentially consistent. The slots in use are those from `tail` up to `head`, and the
party between its comparison and its publication owns one slot more: the producer the free slot at `head`, the consumer
the oldest value at `tail`. That is the relation `Holds` to a bounded queue, which every step keeps (`turnStep_queue`).

No call waits for the other party: it returns within four of its own steps, and with `true` if there is room, or a
value, when it starts (`push_returns`, `pop_returns`).
-/

namespace Exasphere.Core

open Exasphere.Lib Exasphere.Lib.Queue

variable {α : Type*}

/-- Where a call of `push` stands, with what it has loaded. -/
inductive Producer (α : Type*)
  | idle
  | loaded (v : α) (head : Nat)
  | writing (v : α) (head : Nat)
  | publishing (v : α) (head : Nat)

/-- Where a call of `pop` stands. -/
inductive Consumer (α : Type*)
  | idle
  | loaded (tail : Nat)
  | reading (tail : Nat)
  | publishing (tail : Nat) (out : α)

/-- The shared memory and both parties; `cap_` is the capacity plus one. -/
structure RingBuffer (α : Type*) where
  cap : Nat
  buf : Nat → α
  head : Nat
  tail : Nat
  producer : Producer α
  consumer : Consumer α

def RingBuffer.new [Inhabited α] (capacity : Nat) : RingBuffer α where
  cap := capacity + 1
  buf := fun _ => default
  head := 0
  tail := 0
  producer := .idle
  consumer := .idle

/-- One step of `push`; an idle producer starts to push `v`. -/
def pushStep (s : RingBuffer α) (v : α) : RingBuffer α × Event α :=
  match s.producer with
  | .idle => ({ s with producer := .loaded v s.head }, .silent)
  | .loaded v head =>
    if (head + 1) % s.cap = s.tail then ({ s with producer := .idle }, .full v)
    else ({ s with producer := .writing v head }, .silent)
  | .writing v head => ({ s with buf := Function.update s.buf head v, producer := .publishing v head }, .silent)
  | .publishing v head => ({ s with head := (head + 1) % s.cap, producer := .idle }, .push v)

/-- One step of `pop`. -/
def popStep (s : RingBuffer α) : RingBuffer α × Event α :=
  match s.consumer with
  | .idle => ({ s with consumer := .loaded s.tail }, .silent)
  | .loaded tail =>
    if tail = s.head then ({ s with consumer := .idle }, .empty)
    else ({ s with consumer := .reading tail }, .silent)
  | .reading tail => ({ s with consumer := .publishing tail (s.buf tail) }, .silent)
  | .publishing tail out => ({ s with tail := (tail + 1) % s.cap, consumer := .idle }, .pop out)

/-- Who takes the next step. -/
inductive Turn (α : Type*)
  | push (v : α)
  | pop

def turnStep (s : RingBuffer α) : Turn α → RingBuffer α × Event α
  | .push v => pushStep s v
  | .pop => popStep s

/-! ## The slots -/

section Slots

variable {cap tail i j : Nat}

/-- Slots less than a round apart are different. -/
theorem slot_inj (hi : i < cap) (hj : j < cap) (h : (tail + i) % cap = (tail + j) % cap) : i = j := by
  have hmod : i ≡ j [MOD cap] := Nat.ModEq.add_left_cancel' tail h
  rwa [Nat.ModEq, Nat.mod_eq_of_lt hi, Nat.mod_eq_of_lt hj] at hmod

theorem slot_succ (cap tail i : Nat) : ((tail + 1) % cap + i) % cap = (tail + (i + 1)) % cap := by
  rw [Nat.mod_add_mod]
  congr 1
  omega

end Slots

/-! ## The queue in the buffer -/

/-- The producer has loaded the current `head`; after the comparison there is room, after the write its slot is set. -/
def ProducerHolds (capacity : Nat) (s : RingBuffer α) (q : List α) : Producer α → Prop
  | .idle => True
  | .loaded _ head => head = s.head
  | .writing _ head => head = s.head ∧ q.length < capacity
  | .publishing v head => head = s.head ∧ q.length < capacity ∧ s.buf head = v

/-- The consumer has loaded the current `tail`; after the comparison there is a value, after the read it is the oldest
one. -/
def ConsumerHolds (s : RingBuffer α) (q : List α) : Consumer α → Prop
  | .idle => True
  | .loaded tail => tail = s.tail
  | .reading tail => tail = s.tail ∧ q ≠ []
  | .publishing tail out => tail = s.tail ∧ q.head? = some out

/-- The buffer holds the queue `q`. -/
structure Holds (capacity : Nat) (s : RingBuffer α) (q : List α) : Prop where
  cap : s.cap = capacity + 1
  tail : s.tail < s.cap
  head : s.head = (s.tail + q.length) % s.cap
  length : q.length ≤ capacity
  slots : ∀ i v, q[i]? = some v → s.buf ((s.tail + i) % s.cap) = v
  producer : ProducerHolds capacity s q s.producer
  consumer : ConsumerHolds s q s.consumer

section Steps

variable {capacity : Nat} {s : RingBuffer α} {q : List α}

/-- The comparison of `push`. -/
theorem Holds.full_iff (h : Holds capacity s q) : (s.head + 1) % s.cap = s.tail ↔ q.length = capacity := by
  have hcap := h.cap
  have hlen := h.length
  rw [h.head, Nat.mod_add_mod]
  constructor
  · intro heq
    by_contra hne
    have hslot : (s.tail + (q.length + 1)) % s.cap = (s.tail + 0) % s.cap := by
      rw [← Nat.add_assoc, heq]
      exact (Nat.mod_eq_of_lt h.tail).symm
    have := slot_inj (by omega) (by omega) hslot
    omega
  · intro heq
    have hround : s.tail + q.length + 1 = s.tail + s.cap := by omega
    rw [hround, Nat.add_mod_right, Nat.mod_eq_of_lt h.tail]

/-- The comparison of `pop`. -/
theorem Holds.empty_iff (h : Holds capacity s q) : s.tail = s.head ↔ q = [] := by
  have hcap := h.cap
  have hlen := h.length
  rw [h.head]
  constructor
  · intro heq
    have hslot : (s.tail + 0) % s.cap = (s.tail + q.length) % s.cap := by
      rw [Nat.add_zero, Nat.mod_eq_of_lt h.tail]
      exact heq
    exact List.length_eq_zero_iff.mp (slot_inj (by omega) (by omega) hslot).symm
  · rintro rfl
    rw [List.length_nil, Nat.add_zero, Nat.mod_eq_of_lt h.tail]

/-- The slot at `head` holds no value of the queue while there is room. -/
theorem Holds.free (h : Holds capacity s q) (hroom : q.length < capacity) {i : Nat} {v : α} (hi : q[i]? = some v) :
    (s.tail + i) % s.cap ≠ s.head := by
  intro heq
  have hcap := h.cap
  obtain ⟨hlt, -⟩ := List.getElem?_eq_some_iff.mp hi
  rw [h.head] at heq
  have := slot_inj (by omega) (by omega) heq
  omega

/-- A change of the producer's place alone. -/
theorem Holds.setProducer (h : Holds capacity s q) {p : Producer α} (hp : ProducerHolds capacity s q p) :
    Holds capacity { s with producer := p } q where
  cap := h.cap
  tail := h.tail
  head := h.head
  length := h.length
  slots := h.slots
  producer := by cases p <;> exact hp
  consumer := by
    have := h.consumer
    cases hc : s.consumer <;> rw [hc] at this <;> exact this

theorem Holds.setConsumer (h : Holds capacity s q) {c : Consumer α} (hc : ConsumerHolds s q c) :
    Holds capacity { s with consumer := c } q where
  cap := h.cap
  tail := h.tail
  head := h.head
  length := h.length
  slots := h.slots
  producer := by
    have := h.producer
    cases hp : s.producer <;> rw [hp] at this <;> exact this
  consumer := by cases c <;> exact hc

theorem Holds.write (h : Holds capacity s q) (v : α) (hroom : q.length < capacity) :
    Holds capacity { s with buf := Function.update s.buf s.head v, producer := .publishing v s.head } q where
  cap := h.cap
  tail := h.tail
  head := h.head
  length := h.length
  slots := by
    intro i u hi
    exact (Function.update_of_ne (h.free hroom hi) ..).trans (h.slots i u hi)
  producer := ⟨rfl, hroom, Function.update_self ..⟩
  consumer := by
    have := h.consumer
    cases hc : s.consumer <;> rw [hc] at this <;> exact this

/-- The producer publishes its value. -/
theorem Holds.publishHead (h : Holds capacity s q) {v : α} (hroom : q.length < capacity) (hv : s.buf s.head = v) :
    Holds capacity { s with head := (s.head + 1) % s.cap, producer := .idle } (q ++ [v]) where
  cap := h.cap
  tail := h.tail
  head := by
    rw [h.head, Nat.mod_add_mod, List.length_append]
    rfl
  length := by
    rw [List.length_append]
    exact hroom
  slots := by
    intro i u hi
    rcases Nat.lt_or_ge i q.length with hlt | hge
    · rw [List.getElem?_append_left hlt] at hi
      exact h.slots i u hi
    · rw [List.getElem?_append_right hge] at hi
      obtain ⟨hlast, rfl⟩ := List.getElem?_eq_some_iff.mp hi
      obtain rfl : i = q.length := by
        simp only [List.length_singleton] at hlast
        omega
      rw [← h.head]
      simpa using hv
  producer := trivial
  consumer := by
    have := h.consumer
    cases hc : s.consumer with
    | idle => trivial
    | loaded tail =>
      rw [hc] at this
      exact this
    | reading tail =>
      rw [hc] at this
      exact ⟨this.1, by simp⟩
    | publishing tail out =>
      rw [hc] at this
      obtain ⟨ht, hq⟩ := this
      refine ⟨ht, ?_⟩
      rw [List.head?_append, hq]
      rfl

/-- The consumer publishes the slot it has read. -/
theorem Holds.publishTail {v : α} (h : Holds capacity s (v :: q)) :
    Holds capacity { s with tail := (s.tail + 1) % s.cap, consumer := .idle } q where
  cap := h.cap
  tail := Nat.mod_lt _ (by rw [h.cap]; omega)
  head := by
    rw [slot_succ, h.head]
    rfl
  length := by
    have := h.length
    rw [List.length_cons] at this
    omega
  slots := by
    intro i u hi
    rw [slot_succ]
    exact h.slots (i + 1) u (by simpa using hi)
  producer := by
    have := h.producer
    cases hp : s.producer with
    | idle => trivial
    | loaded u head =>
      rw [hp] at this
      exact this
    | writing u head =>
      rw [hp] at this
      obtain ⟨h₁, h₂⟩ := this
      exact ⟨h₁, by rw [List.length_cons] at h₂; omega⟩
    | publishing u head =>
      rw [hp] at this
      obtain ⟨h₁, h₂, h₃⟩ := this
      exact ⟨h₁, by rw [List.length_cons] at h₂; omega, h₃⟩
  consumer := trivial

/-! ## Steps -/

theorem pushStep_queue (h : Holds capacity s q) (v : α) :
    ∃ q', Queue.Step capacity q (pushStep s v).2 q' ∧ Holds capacity (pushStep s v).1 q' := by
  have hp := h.producer
  unfold pushStep
  cases hpc : s.producer with
  | idle => exact ⟨q, .silent q, h.setProducer rfl⟩
  | loaded u head =>
    rw [hpc] at hp
    obtain rfl : head = s.head := hp
    simp only [h.full_iff]
    split
    next hfull => exact ⟨q, .full q u hfull, h.setProducer trivial⟩
    next hroom =>
      have hlen := h.length
      exact ⟨q, .silent q, h.setProducer ⟨rfl, by omega⟩⟩
  | writing u head =>
    rw [hpc] at hp
    obtain ⟨rfl, hroom⟩ := hp
    exact ⟨q, .silent q, h.write u hroom⟩
  | publishing u head =>
    rw [hpc] at hp
    obtain ⟨rfl, hroom, hv⟩ := hp
    exact ⟨q ++ [u], .push q u hroom, h.publishHead hroom hv⟩

theorem popStep_queue (h : Holds capacity s q) :
    ∃ q', Queue.Step capacity q (popStep s).2 q' ∧ Holds capacity (popStep s).1 q' := by
  have hc := h.consumer
  unfold popStep
  cases hpc : s.consumer with
  | idle => exact ⟨q, .silent q, h.setConsumer rfl⟩
  | loaded tail =>
    rw [hpc] at hc
    obtain rfl : tail = s.tail := hc
    simp only [h.empty_iff]
    split
    next hempty =>
      subst hempty
      exact ⟨[], .empty, h.setConsumer trivial⟩
    next hne => exact ⟨q, .silent q, h.setConsumer ⟨rfl, hne⟩⟩
  | reading tail =>
    rw [hpc] at hc
    obtain ⟨rfl, hne⟩ := hc
    obtain ⟨u, q, rfl⟩ := List.exists_cons_of_ne_nil hne
    have hslot := h.slots 0 u rfl
    rw [Nat.add_zero, Nat.mod_eq_of_lt h.tail] at hslot
    exact ⟨u :: q, .silent _, h.setConsumer ⟨rfl, by rw [hslot]; rfl⟩⟩
  | publishing tail out =>
    rw [hpc] at hc
    obtain ⟨rfl, hq⟩ := hc
    obtain ⟨q, rfl⟩ := List.head?_eq_some_iff.mp hq
    exact ⟨q, .pop out q, h.publishTail⟩

/-- Every step is a step of the queue in the buffer. -/
theorem turnStep_queue (s : RingBuffer α) (q : List α) (turn : Turn α) (h : Holds capacity s q) :
    ∃ q', Queue.Step capacity q (turnStep s turn).2 q' ∧ Holds capacity (turnStep s turn).1 q' := by
  cases turn with
  | push v => exact pushStep_queue h v
  | pop => exact popStep_queue h

end Steps

/-! ## Calls return -/

/-- The steps that a call of `push` still takes at most, its first one included. -/
def Producer.stepsLeft : Producer α → Nat
  | .idle => 4
  | .loaded _ _ => 3
  | .writing _ _ => 2
  | .publishing _ _ => 1

def Consumer.stepsLeft : Consumer α → Nat
  | .idle => 4
  | .loaded _ => 3
  | .reading _ => 2
  | .publishing _ _ => 1

def Turn.isPush : Turn α → Bool
  | .push _ => true
  | .pop => false

section Returns

variable {capacity : Nat} {s : RingBuffer α} {q : List α} {turns : List (Turn α)}

@[simp] theorem pushStep_consumer (s : RingBuffer α) (v : α) : (pushStep s v).1.consumer = s.consumer := by
  unfold pushStep
  split
  case h_2 => split <;> rfl
  all_goals rfl

@[simp] theorem popStep_producer (s : RingBuffer α) : (popStep s).1.producer = s.producer := by
  unfold popStep
  split
  case h_2 => split <;> rfl
  all_goals rfl

/-- Every step of the producer returns or brings its call further, and no step of the consumer sets it back. -/
theorem producer_countdown (s : RingBuffer α) (turn : Turn α) :
    (turnStep s turn).2.EndsPush ∨
      (turnStep s turn).1.producer.stepsLeft + (if turn.isPush then 1 else 0) ≤ s.producer.stepsLeft := by
  cases turn with
  | push v =>
    simp only [turnStep, pushStep]
    cases hp : s.producer with
    | idle => exact Or.inr (le_refl _)
    | loaded u head =>
      dsimp only
      split
      · exact Or.inl (Or.inr ⟨u, rfl⟩)
      · exact Or.inr (le_refl _)
    | writing u head => exact Or.inr (le_refl _)
    | publishing u head => exact Or.inl (Or.inl ⟨u, rfl⟩)
  | pop =>
    simp only [turnStep, popStep_producer]
    exact Or.inr (le_refl _)

theorem consumer_countdown (s : RingBuffer α) (turn : Turn α) :
    (turnStep s turn).2.EndsPop ∨
      (turnStep s turn).1.consumer.stepsLeft + (if !turn.isPush then 1 else 0) ≤ s.consumer.stepsLeft := by
  cases turn with
  | push v =>
    simp only [turnStep, pushStep_consumer]
    exact Or.inr (le_refl _)
  | pop =>
    simp only [turnStep, popStep]
    cases hc : s.consumer with
    | idle => exact Or.inr (le_refl _)
    | loaded tail =>
      dsimp only
      split
      · exact Or.inl (Or.inr rfl)
      · exact Or.inr (le_refl _)
    | reading tail => exact Or.inr (le_refl _)
    | publishing tail out => exact Or.inl (Or.inl ⟨out, rfl⟩)

/-- **A call of `push` returns** once the producer has taken the steps left to it, at most four, whatever the consumer
does between them: with `true` if there was room. -/
theorem push_returns (h : Holds capacity s q) (hown : s.producer.stepsLeft ≤ turns.countP Turn.isPush) :
    (pushes (runFrom turnStep s turns).2 ≠ [] ∨ ∃ v, .full v ∈ (runFrom turnStep s turns).2) ∧
      (q.length < capacity → pushes (runFrom turnStep s turns).2 ≠ []) := by
  have hpos : ∀ s : RingBuffer α, 0 < s.producer.stepsLeft := fun s => by
    cases s.producer <;> simp [Producer.stepsLeft]
  have hreturns : pushes (runFrom turnStep s turns).2 ≠ [] ∨ ∃ v, .full v ∈ (runFrom turnStep s turns).2 := by
    obtain ⟨e, he, ⟨v, rfl⟩ | ⟨v, rfl⟩⟩ := returns_of_countdown turnStep (fun s => s.producer.stepsLeft) hpos
      producer_countdown hown
    · exact Or.inl (pushes_ne_nil he)
    · exact Or.inr ⟨v, he⟩
  refine ⟨hreturns, fun hroom => ?_⟩
  rcases hreturns with hpush | ⟨v, hfull⟩
  · exact hpush
  · exact pushes_ne_nil_of_full turnStep (Holds capacity) h turnStep_queue hroom turns hfull

/-- **A call of `pop` returns** once the consumer has taken the steps left to it, at most four: with `true` if there was
a value. -/
theorem pop_returns (h : Holds capacity s q) (hown : s.consumer.stepsLeft ≤ turns.countP (fun turn => !turn.isPush)) :
    (pops (runFrom turnStep s turns).2 ≠ [] ∨ .empty ∈ (runFrom turnStep s turns).2) ∧
      (q ≠ [] → pops (runFrom turnStep s turns).2 ≠ []) := by
  have hpos : ∀ s : RingBuffer α, 0 < s.consumer.stepsLeft := fun s => by
    cases s.consumer <;> simp [Consumer.stepsLeft]
  have hreturns : pops (runFrom turnStep s turns).2 ≠ [] ∨ .empty ∈ (runFrom turnStep s turns).2 := by
    obtain ⟨e, he, ⟨v, rfl⟩ | rfl⟩ := returns_of_countdown turnStep (fun s => s.consumer.stepsLeft) hpos
      consumer_countdown hown
    · exact Or.inl (pops_ne_nil he)
    · exact Or.inr he
  refine ⟨hreturns, fun hne => ?_⟩
  rcases hreturns with hpop | hempty
  · exact hpop
  · exact pops_ne_nil_of_empty turnStep (Holds capacity) h turnStep_queue hne turns hempty

end Returns

/-! ## Schedules -/

/-- A new buffer under a schedule. -/
def schedule [Inhabited α] (capacity : Nat) (turns : List (Turn α)) : RingBuffer α × List (Event α) :=
  runFrom turnStep (RingBuffer.new capacity) turns

end Exasphere.Core
