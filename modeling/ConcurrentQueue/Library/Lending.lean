import ConcurrentQueue.Library.Ring
import ConcurrentQueue.Library.TicketRing
import Mathlib.Data.Set.Basic
import Mathlib.Logic.Function.Basic

namespace ConcurrentQueue

/-!
# Two sides that lend each other the slots of a ring

Each side counts what it has done and publishes the count in messages of its
own; a message carries what the side knew when it published it.  A side works
at the positions from its own count up to a limit set by the newest message of
the other side that it has acquired: the consumer up to the producer's count,
the producer one ring beyond the consumer's.

Positions one ring apart share a slot.  The module proves that a side that
works within its limit knows of every earlier access to the slot, and that a
message carries whatever the other side had published of the slots it covers.
-/

/-- The opposite side. -/
def Side.other : Side → Side
  | .producer => .consumer
  | .consumer => .producer

@[simp] theorem Side.other_other (side : Side) :
    side.other.other = side := by
  cases side <;> rfl

/-- How far a side may look beyond the other side's count. -/
def Side.span (slots : Nat) : Side → Nat
  | .producer => slots
  | .consumer => 0

/-- How far a side may publish beyond the other side's count. -/
def Side.reach (slots : Nat) : Side → Nat
  | .producer => slots - 1
  | .consumer => 0

theorem Side.reach_le_span (slots : Nat) (side : Side) :
    side.reach slots ≤ side.span slots := by
  cases side with
  | producer => exact Nat.sub_le slots 1
  | consumer => exact Nat.le_refl 0

/-- Positions moved by a side's span are in the same slot. -/
theorem Side.add_span_mod (slots position : Nat) (side : Side) :
    (position + side.span slots) % slots = position % slots := by
  cases side with
  | producer => exact Nat.add_mod_right position slots
  | consumer => rfl

/-- The messages, the acquired messages and the knowledge of both sides. -/
structure Lending (Fact : Type) where
  newest : Side → Nat
  total : Side → Nat → Nat
  /-- The message of the other side that a side has acquired. -/
  seen : Side → Nat
  knows : Side → Set Fact
  carried : Side → Nat → Set Fact
  /-- How often each slot has been accessed. -/
  accesses : Nat → Nat

namespace Lending

variable {Fact : Type}

/-- What a side has published so far. -/
def done (lending : Lending Fact) (side : Side) : Nat :=
  lending.total side (lending.newest side)

/-- The end of the positions that a message of the other side covers. -/
def limit
    (slots : Nat)
    (lending : Lending Fact)
    (side : Side)
    (message : Nat) : Nat :=
  lending.total side.other message + side.span slots

/-- Nothing published is revised and nothing known is forgotten. -/
structure Extends (before after : Lending Fact) : Prop where
  total :
    ∀ {side message},
      message ≤ before.newest side →
      after.total side message = before.total side message
  carried :
    ∀ {side message},
      message ≤ before.newest side →
      after.carried side message = before.carried side message
  knows :
    ∀ side, before.knows side ⊆ after.knows side

/-- What one step of one side does; `access` names the accesses. -/
inductive Step
    (access : Nat → Nat → Fact)
    (slots : Nat)
    (before after : Lending Fact) : Prop where
  | learn
      (extended : Extends before after)
      (sameNewest : after.newest = before.newest)
      (sameSeen : after.seen = before.seen)
      (sameAccesses : after.accesses = before.accesses)
  | acquire (side : Side) (message : Nat)
      (extended : Extends before after)
      (sameNewest : after.newest = before.newest)
      (isSeen : after.seen = Function.update before.seen side message)
      (bound : message ≤ before.newest side.other)
      (acquired : before.carried side.other message ⊆ after.knows side)
      (sameAccesses : after.accesses = before.accesses)
  | access (side : Side) (position : Nat)
      (extended : Extends before after)
      (sameNewest : after.newest = before.newest)
      (sameSeen : after.seen = before.seen)
      (notDone : before.done side ≤ position)
      (licensed : position < before.limit slots side (before.seen side))
      (accessed :
        after.accesses =
          Function.update before.accesses (position % slots)
            (before.accesses (position % slots) + 1))
      (isKnown :
        access (position % slots) (before.accesses (position % slots)) ∈
          after.knows side)
  | publish (side : Side)
      (extended : Extends before after)
      (isNewest :
        after.newest =
          Function.update before.newest side (before.newest side + 1))
      (sameSeen : after.seen = before.seen)
      (grows :
        before.done side ≤ after.total side (before.newest side + 1))
      (licensed :
        after.total side (before.newest side + 1) ≤
          before.total side.other (before.seen side) + side.reach slots)
      (sameAccesses : after.accesses = before.accesses)
      (carries :
        before.knows side ⊆ after.carried side (before.newest side + 1))
      (owned :
        after.carried side (before.newest side + 1) ⊆ after.knows side)

/-- What both sides know of the slots that they may work on. -/
structure Licensed
    (access : Nat → Nat → Fact)
    (slots : Nat)
    (lending : Lending Fact) : Prop where
  monotone :
    ∀ {side first second},
      first ≤ second →
      second ≤ lending.newest side →
      lending.total side first ≤ lending.total side second
  bounded :
    ∀ side,
      lending.done side ≤ lending.done side.other + side.reach slots
  seenBound :
    ∀ side, lending.seen side ≤ lending.newest side.other
  owned :
    ∀ {side message},
      message ≤ lending.newest side →
      lending.carried side message ⊆ lending.knows side
  acquired :
    ∀ side,
      lending.carried side.other (lending.seen side) ⊆ lending.knows side
  cumulative :
    ∀ {side first second},
      first ≤ second →
      second ≤ lending.newest side →
      lending.carried side first ⊆ lending.carried side second
  /-- Accesses to covered slots are carried or the side's own. -/
  settled :
    ∀ {side message position number},
      message ≤ lending.newest side.other →
      lending.done side ≤ position →
      position < lending.limit slots side message →
      number < lending.accesses (position % slots) →
      access (position % slots) number ∈
          lending.carried side.other message ∨
        access (position % slots) number ∈ lending.knows side
  /-- A message carries what the other side published of what it covers. -/
  handed :
    ∀ {side message publication},
      message ≤ lending.newest side →
      publication < lending.newest side.other →
      lending.total side.other publication + side.reach slots <
        lending.total side message →
      lending.carried side.other (publication + 1) ⊆
        lending.carried side message

/-- What one side may work at and what the other one may are apart. -/
theorem windows_apart
    {slots ours theirs position other : Nat}
    (side : Side)
    (notDone : ours ≤ position)
    (within : position < theirs + side.span slots)
    (notDone' : theirs ≤ other)
    (within' : other < ours + side.other.span slots) :
    other % slots ≠ position % slots := by
  cases side with
  | producer =>
      apply Ring.mod_ne_of_lt
      · exact Nat.lt_of_lt_of_le within' notDone
      · exact Nat.lt_of_lt_of_le within (Nat.add_le_add_right notDone' slots)
  | consumer =>
      apply Ne.symm
      apply Ring.mod_ne_of_lt
      · exact Nat.lt_of_lt_of_le within notDone'
      · exact Nat.lt_of_lt_of_le within' (Nat.add_le_add_right notDone slots)

namespace Licensed

variable {access : Nat → Nat → Fact} {slots : Nat}
variable {before after : Lending Fact}

/-- Nobody has done, published or acquired anything. -/
theorem initial
    {lending : Lending Fact}
    (noMessages : ∀ side, lending.newest side = 0)
    (nothingDone : ∀ side, lending.total side 0 = 0)
    (nothingSeen : ∀ side, lending.seen side = 0)
    (nothingCarried : ∀ side, lending.carried side 0 = ∅)
    (noAccesses : ∀ slot, lending.accesses slot = 0) :
    Licensed access slots lending where
  monotone := by
    intro side first second ordered bound
    rw [noMessages, Nat.le_zero] at bound
    subst bound
    rw [Nat.le_zero.mp ordered]
  bounded := by
    intro side
    simp [done, noMessages, nothingDone]
  seenBound := by
    intro side
    simp [nothingSeen]
  owned := by
    intro side message bound
    rw [noMessages, Nat.le_zero] at bound
    simp [bound, nothingCarried]
  acquired := by
    intro side
    simp [nothingSeen, nothingCarried]
  cumulative := by
    intro side first second ordered bound
    rw [noMessages, Nat.le_zero] at bound
    subst bound
    rw [Nat.le_zero.mp ordered]
  settled := by
    intro side message position number _ _ _ earlier
    rw [noAccesses] at earlier
    exact absurd earlier (Nat.not_lt_zero number)
  handed := by
    intro side message publication _ earlier
    rw [noMessages] at earlier
    exact absurd earlier (Nat.not_lt_zero publication)

/-- Published counts are at most the newest one. -/
theorem total_le_done
    (licensed : Licensed access slots before)
    {side : Side}
    {message : Nat}
    (bound : message ≤ before.newest side) :
    before.total side message ≤ before.done side :=
  licensed.monotone bound (Nat.le_refl _)

/-- A side's limit is at most what the other side has done. -/
theorem limit_le
    (licensed : Licensed access slots before)
    {side : Side}
    {message : Nat}
    (bound : message ≤ before.newest side.other) :
    before.limit slots side message ≤
      before.done side.other + side.span slots :=
  Nat.add_le_add_right (licensed.total_le_done bound) _

/-- A side that works within its limit knows all accesses to the slot. -/
theorem known
    (licensed : Licensed access slots before)
    {side : Side}
    {position number : Nat}
    (notDone : before.done side ≤ position)
    (within : position < before.limit slots side (before.seen side))
    (earlier : number < before.accesses (position % slots)) :
    access (position % slots) number ∈ before.knows side := by
  rcases licensed.settled (licensed.seenBound side) notDone within earlier
    with carried | isKnown
  · exact licensed.acquired side carried
  · exact isKnown

/-- Counts of a side that has published nothing new. -/
theorem done_eq
    (extended : Extends before after)
    {side : Side}
    (sameNewest : after.newest side = before.newest side) :
    after.done side = before.done side := by
  unfold done
  rw [sameNewest]
  exact extended.total (Nat.le_refl _)

/-- Accesses that stay carried or known. -/
theorem settled_mono
    (extended : Extends before after)
    {side : Side}
    {message : Nat}
    {fact : Fact}
    (bound : message ≤ before.newest side.other)
    (isSettled :
      fact ∈ before.carried side.other message ∨
        fact ∈ before.knows side) :
    fact ∈ after.carried side.other message ∨ fact ∈ after.knows side := by
  rw [extended.carried bound]
  exact isSettled.imp id fun isKnown => extended.knows side isKnown

/-- Publishing nothing keeps what messages say and carry. -/
theorem of_sameNewest
    (licensed : Licensed access slots before)
    (extended : Extends before after)
    (sameNewest : after.newest = before.newest)
    (seenBound : ∀ side, after.seen side ≤ before.newest side.other)
    (acquired :
      ∀ side,
        before.carried side.other (after.seen side) ⊆ after.knows side)
    (settled :
      ∀ {side message position number},
        message ≤ before.newest side.other →
        before.done side ≤ position →
        position < before.limit slots side message →
        number < after.accesses (position % slots) →
        access (position % slots) number ∈
            before.carried side.other message ∨
          access (position % slots) number ∈ after.knows side) :
    Licensed access slots after := by
  have sameDone : ∀ side, after.done side = before.done side :=
    fun side => done_eq extended (congrFun sameNewest side)
  constructor
  case monotone =>
      intro side first second ordered bound
      rw [sameNewest] at bound
      rw [extended.total bound, extended.total (Nat.le_trans ordered bound)]
      exact licensed.monotone ordered bound
  case bounded =>
      intro side
      rw [sameDone, sameDone]
      exact licensed.bounded side
  case seenBound =>
      rw [sameNewest]
      exact seenBound
  case owned =>
      intro side message bound
      rw [sameNewest] at bound
      rw [extended.carried bound]
      exact (licensed.owned bound).trans (extended.knows side)
  case acquired =>
      intro side
      rw [extended.carried (seenBound side)]
      exact acquired side
  case cumulative =>
      intro side first second ordered bound
      rw [sameNewest] at bound
      rw [extended.carried bound,
        extended.carried (Nat.le_trans ordered bound)]
      exact licensed.cumulative ordered bound
  case settled =>
      intro side message position number bound notDone within earlier
      rw [sameNewest] at bound
      rw [sameDone] at notDone
      rw [limit, extended.total bound] at within
      rw [extended.carried bound]
      exact settled bound notDone within earlier
  case handed =>
      intro side message publication bound earlier covers
      rw [sameNewest] at bound earlier
      rw [extended.total bound, extended.total (Nat.le_of_lt earlier)]
        at covers
      rw [extended.carried bound, extended.carried earlier]
      exact licensed.handed bound earlier covers

/-- An access is known to its side and outside the other side's reach. -/
theorem settled_access
    (licensed : Licensed access slots before)
    (extended : Extends before after)
    {side : Side}
    {position : Nat}
    (notDone : before.done side ≤ position)
    (within : position < before.limit slots side (before.seen side))
    (accessed :
      after.accesses =
        Function.update before.accesses (position % slots)
          (before.accesses (position % slots) + 1))
    (isKnown :
      access (position % slots) (before.accesses (position % slots)) ∈
        after.knows side)
    {other : Side}
    {message place number : Nat}
    (bound : message ≤ before.newest other.other)
    (notDone' : before.done other ≤ place)
    (within' : place < before.limit slots other message)
    (earlier : number < after.accesses (place % slots)) :
    access (place % slots) number ∈ before.carried other.other message ∨
      access (place % slots) number ∈ after.knows other := by
  have older
      (old : number < before.accesses (place % slots)) :
      access (place % slots) number ∈ before.carried other.other message ∨
        access (place % slots) number ∈ after.knows other :=
    (licensed.settled bound notDone' within' old).imp id
      fun isOld => extended.knows other isOld
  rw [accessed] at earlier
  by_cases sameSlot : place % slots = position % slots
  · rw [sameSlot, Function.update_self] at earlier
    rcases Nat.lt_succ_iff_lt_or_eq.mp earlier with old | isNew
    · rw [← sameSlot] at old
      exact older old
    · by_cases own : other = side
      · subst own
        right
        rw [sameSlot, isNew]
        exact isKnown
      · have isOther : other = side.other := by
          cases other <;> cases side <;> first | rfl | exact absurd rfl own
        subst isOther
        have limited :=
          Nat.lt_of_lt_of_le within
            (licensed.limit_le (licensed.seenBound side))
        have limited' := Nat.lt_of_lt_of_le within' (licensed.limit_le bound)
        rw [Side.other_other] at limited'
        exact absurd sameSlot
          (windows_apart side notDone limited notDone' limited')
  · rw [Function.update_of_ne sameSlot] at earlier
    exact older earlier

section Publishing

variable {side : Side}

/-- The publishing side knows what its message newly covers. -/
theorem known_publish
    (licensed : Licensed access slots before)
    (allowed :
      after.total side (before.newest side + 1) ≤
        before.total side.other (before.seen side) + side.reach slots)
    {place number : Nat}
    (uncovered : before.done side + side.other.span slots ≤ place)
    (within :
      place <
        after.total side (before.newest side + 1) + side.other.span slots)
    (earlier : number < before.accesses (place % slots)) :
    access (place % slots) number ∈ before.knows side := by
  have reach := side.reach_le_span slots
  obtain ⟨position, rfl⟩ :
      ∃ position, place = position + side.other.span slots :=
    ⟨place - side.other.span slots, by omega⟩
  rw [Side.add_span_mod] at earlier ⊢
  apply licensed.known (by omega) _ earlier
  unfold limit
  omega

/-- Whatever a message covers, it carries or the other side has done. -/
theorem settled_publish
    (licensed : Licensed access slots before)
    (extended : Extends before after)
    (isNewest :
      after.newest =
        Function.update before.newest side (before.newest side + 1))
    (grows : before.done side ≤ after.done side)
    (allowed :
      after.total side (before.newest side + 1) ≤
        before.total side.other (before.seen side) + side.reach slots)
    (carries :
      before.knows side ⊆ after.carried side (before.newest side + 1))
    {other : Side}
    {message place number : Nat}
    (bound : message ≤ after.newest other.other)
    (notDone : after.done other ≤ place)
    (within : place < after.limit slots other message)
    (earlier : number < before.accesses (place % slots)) :
    access (place % slots) number ∈ after.carried other.other message ∨
      access (place % slots) number ∈ after.knows other := by
  have notDone' : before.done other ≤ place := by
    by_cases own : other = side
    · subst own
      exact Nat.le_trans grows notDone
    · rw [done_eq extended (by rw [isNewest, Function.update_of_ne own])]
        at notDone
      exact notDone
  by_cases old : message ≤ before.newest other.other
  · rw [limit, extended.total old] at within
    exact settled_mono extended old
      (licensed.settled old notDone' within earlier)
  · have own : other.other = side := by
      by_contra different
      rw [isNewest, Function.update_of_ne different] at bound
      exact old bound
    have isOther : other = side.other := by
      rw [← own, Side.other_other]
    subst isOther
    rw [Side.other_other] at bound old
    rw [isNewest, Function.update_self] at bound
    have isNew := Nat.le_antisymm bound (Nat.lt_of_not_ge old)
    rw [limit, Side.other_other, isNew] at within
    rw [Side.other_other, isNew]
    by_cases covered : place < before.done side + side.other.span slots
    · have isSettled :=
        licensed.settled (Nat.le_refl _) notDone'
          (by rw [limit, Side.other_other]; exact covered) earlier
      rw [Side.other_other] at isSettled
      exact isSettled.imp
        (fun isCarried =>
          carries (licensed.owned (Nat.le_refl _) isCarried))
        (fun isKnown => extended.knows side.other isKnown)
    · left
      exact carries
        (licensed.known_publish allowed (Nat.le_of_not_lt covered) within
          earlier)

/-- A message was there before or is the one published. -/
theorem message_cases
    (isNewest :
      after.newest =
        Function.update before.newest side (before.newest side + 1))
    {other : Side}
    {message : Nat}
    (bound : message ≤ after.newest other) :
    message ≤ before.newest other ∨
      other = side ∧ message = before.newest side + 1 := by
  rw [isNewest] at bound
  by_cases own : other = side
  · subst own
    rw [Function.update_self] at bound
    exact (Nat.le_or_eq_of_le_succ bound).imp id fun isNew => ⟨rfl, isNew⟩
  · rw [Function.update_of_ne own] at bound
    exact Or.inl bound

/-- Publishing keeps both sides licensed. -/
theorem publish
    (licensed : Licensed access slots before)
    (extended : Extends before after)
    (isNewest :
      after.newest =
        Function.update before.newest side (before.newest side + 1))
    (sameSeen : after.seen = before.seen)
    (grows :
      before.done side ≤ after.total side (before.newest side + 1))
    (allowed :
      after.total side (before.newest side + 1) ≤
        before.total side.other (before.seen side) + side.reach slots)
    (sameAccesses : after.accesses = before.accesses)
    (carries :
      before.knows side ⊆ after.carried side (before.newest side + 1))
    (isOwned :
      after.carried side (before.newest side + 1) ⊆ after.knows side) :
    Licensed access slots after := by
  have isDone :
      after.done side = after.total side (before.newest side + 1) := by
    rw [done, isNewest, Function.update_self]
  have sameDone : ∀ other ≠ side, after.done other = before.done other :=
    fun other different =>
      done_eq extended (by rw [isNewest, Function.update_of_ne different])
  have newest : ∀ other, before.newest other ≤ after.newest other := by
    intro other
    rw [isNewest]
    by_cases own : other = side
    · subst own
      rw [Function.update_self]
      exact Nat.le_succ _
    · rw [Function.update_of_ne own]
  have doneGrows : ∀ other, before.done other ≤ after.done other := by
    intro other
    by_cases own : other = side
    · subst own
      rw [isDone]
      exact grows
    · rw [sameDone other own]
  constructor
  case monotone =>
      intro other first second ordered bound
      rcases message_cases isNewest bound with old | ⟨rfl, rfl⟩
      · rw [extended.total old, extended.total (Nat.le_trans ordered old)]
        exact licensed.monotone ordered old
      · rcases Nat.le_or_eq_of_le_succ ordered with old | isNew
        · rw [extended.total old]
          exact Nat.le_trans (licensed.total_le_done old) grows
        · rw [isNew]
  case bounded =>
      intro other
      by_cases own : other = side
      · subst own
        have published := licensed.total_le_done (licensed.seenBound other)
        have later := doneGrows other.other
        rw [isDone]
        omega
      · rw [sameDone other own]
        exact Nat.le_trans (licensed.bounded other)
          (Nat.add_le_add_right (doneGrows other.other) _)
  case seenBound =>
      intro other
      rw [sameSeen]
      exact Nat.le_trans (licensed.seenBound other) (newest other.other)
  case owned =>
      intro other message bound
      rcases message_cases isNewest bound with old | ⟨rfl, rfl⟩
      · rw [extended.carried old]
        exact (licensed.owned old).trans (extended.knows other)
      · exact isOwned
  case acquired =>
      intro other
      rw [sameSeen, extended.carried (licensed.seenBound other)]
      exact (licensed.acquired other).trans (extended.knows other)
  case cumulative =>
      intro other first second ordered bound
      rcases message_cases isNewest bound with old | ⟨rfl, rfl⟩
      · rw [extended.carried old,
          extended.carried (Nat.le_trans ordered old)]
        exact licensed.cumulative ordered old
      · rcases Nat.le_or_eq_of_le_succ ordered with old | isNew
        · rw [extended.carried old]
          exact (licensed.owned old).trans carries
        · rw [isNew]
  case settled =>
      intro other message place number bound notDone within earlier
      rw [sameAccesses] at earlier
      exact licensed.settled_publish extended isNewest (doneGrows side)
        allowed carries bound notDone within earlier
  case handed =>
      intro other message publication bound earlier covers
      rcases message_cases isNewest bound with old | ⟨rfl, rfl⟩
      · rw [extended.total old] at covers
        rw [extended.carried old]
        rcases message_cases isNewest earlier with isOld | ⟨own, isNew⟩
        · rw [extended.total (Nat.le_of_lt isOld)] at covers
          rw [extended.carried isOld]
          exact licensed.handed old isOld covers
        · -- Nobody is ahead of what the other side has done.
          have isNewest' : publication = before.newest side :=
            Nat.succ.inj isNew
          have limited := licensed.bounded other
          have published := licensed.total_le_done old
          rw [isNewest', own, extended.total (Nat.le_refl _)] at covers
          rw [own] at limited
          unfold done at limited published
          omega
      · have different : other.other ≠ other := by
          cases other <;> decide
        rw [isNewest, Function.update_of_ne different] at earlier
        rw [extended.total (Nat.le_of_lt earlier)] at covers
        rw [extended.carried earlier]
        have older : publication < before.seen other := by
          by_contra later
          have := licensed.monotone (Nat.le_of_not_lt later)
            (Nat.le_of_lt earlier)
          omega
        have isCarried :=
          licensed.cumulative (Nat.succ_le_of_lt older)
            (licensed.seenBound other)
        exact (isCarried.trans (licensed.acquired other)).trans carries

end Publishing

/-- Every step keeps both sides licensed. -/
theorem step
    (licensed : Licensed access slots before)
    (step : Step access slots before after) :
    Licensed access slots after := by
  cases step with
  | learn extended sameNewest sameSeen sameAccesses =>
      apply licensed.of_sameNewest extended sameNewest
      · intro side
        rw [sameSeen]
        exact licensed.seenBound side
      · intro side
        rw [sameSeen]
        exact (licensed.acquired side).trans (extended.knows side)
      · intro side message position number bound notDone within earlier
        rw [sameAccesses] at earlier
        exact (licensed.settled bound notDone within earlier).imp id
          fun isKnown => extended.knows side isKnown
  | acquire side message extended sameNewest isSeen bound acquired
      sameAccesses =>
      apply licensed.of_sameNewest extended sameNewest
      · intro other
        rw [isSeen]
        by_cases own : other = side
        · subst own
          rw [Function.update_self]
          exact bound
        · rw [Function.update_of_ne own]
          exact licensed.seenBound other
      · intro other
        rw [isSeen]
        by_cases own : other = side
        · subst own
          rw [Function.update_self]
          exact acquired
        · rw [Function.update_of_ne own]
          exact (licensed.acquired other).trans (extended.knows other)
      · intro other message position number bound notDone within earlier
        rw [sameAccesses] at earlier
        exact (licensed.settled bound notDone within earlier).imp id
          fun isKnown => extended.knows other isKnown
  | access side position extended sameNewest sameSeen notDone within
      accessed isKnown =>
      apply licensed.of_sameNewest extended sameNewest
      · intro side
        rw [sameSeen]
        exact licensed.seenBound side
      · intro side
        rw [sameSeen]
        exact (licensed.acquired side).trans (extended.knows side)
      · intro other message place number bound notDone' within' earlier
        exact licensed.settled_access extended notDone within accessed
          isKnown bound notDone' within' earlier
  | publish side extended isNewest sameSeen grows allowed sameAccesses
      carries isOwned =>
      exact licensed.publish extended isNewest sameSeen grows allowed
        sameAccesses carries isOwned

end Licensed

end Lending

end ConcurrentQueue
