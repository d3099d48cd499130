/-
# The reliable channel delivers: both sides

Each side is a source for the other and a target of it, and whatever happens on
one of them keeps it so.
-/

import LibBench.Transport.Arrivals

namespace LibBench.Transport

@[simp]
theorem Side.other_other (side : Side) : side.other.other = side := by
  cases side <;> rfl

theorem Side.other_ne (side : Side) : side.other ≠ side := by
  cases side <;> decide

theorem Side.eq_other_of_ne {side other : Side} (h : other ≠ side) : other = side.other := by
  cases side <;> cases other <;> first | rfl | exact absurd rfl h

variable {M τ : Type} {config : ConnectionConfig M τ}

namespace Network

/-- Both directions of a connection. -/
def Consistent (network : Network ℤ config) : Prop :=
  ∀ side, Direction (network side) (network side.other)

variable {network : Network ℤ config}

theorem consistent_create (time : τ) : (create time : Network ℤ config).Consistent :=
  fun _ => direction_create time

/-- What relates both sides to each other is kept by a side that changes, if it is
kept on both its ends. -/
theorem forall_update {ν : Type} {network : Network ν config}
    {related : Node ν config → Node ν config → Prop} (side : Side) {after : Node ν config}
    (hsource : related after (network side.other)) (htarget : related (network side.other) after)
    (other : Side) :
    related (Function.update network side after other)
      (Function.update network side after other.other) := by
  by_cases heq : other = side
  · subst heq
    rw [Function.update_self, Function.update_of_ne (Side.other_ne other)]
    exact hsource
  · obtain rfl := Side.eq_other_of_ne heq
    rw [Function.update_of_ne (Side.other_ne side), Side.other_other, Function.update_self]
    exact htarget

theorem Consistent.next (h : network.Consistent) (hvalid : config.Valid) (action : Action M τ) :
    (network.next action).Consistent := by
  have hsource : ∀ side, Direction (network side) (network side.other) := h
  have htarget : ∀ side, Direction (network side.other) (network side) := fun side => by
    simpa using h side.other
  cases action with
  | sendMessage side message =>
      exact forall_update side ((hsource side).sendMessage hvalid message)
        ((htarget side).of_sameTarget (sameTarget_sendMessage message))
  | receiveMessage side =>
      exact forall_update side ((hsource side).of_sameSource sameSource_receiveMessage)
        (htarget side).receiveMessage
  | sendUnreliable side message =>
      exact forall_update side ((hsource side).of_sameSource (sameSource_sendUnreliable message))
        ((htarget side).of_sameTarget (sameTarget_sendUnreliable message))
  | receiveUnreliable side =>
      exact forall_update side ((hsource side).of_sameSource sameSource_receiveUnreliable)
        ((htarget side).of_sameTarget sameTarget_receiveUnreliable)
  | sendPacket side =>
      exact forall_update side ((hsource side).sendPacket hvalid)
        ((htarget side).sendPacket_target (hsource side) hvalid)
  | receivePacket side position =>
      refine forall_update side ?_ ?_ <;> rw [perform] <;> split
      · exact hsource side
      · next hpacket => exact (hsource side).receivePacket_source (htarget side) hvalid hpacket
      · exact htarget side
      · next hpacket => exact (htarget side).receivePacket hvalid hpacket
  | receiveFragment side position =>
      refine forall_update side ?_ ?_ <;> rw [perform] <;> split
      · exact hsource side
      · exact (hsource side).of_sameSource (sameSource_receiveFragment _)
      · exact htarget side
      · next hpacket => exact (htarget side).receiveFragment hvalid hpacket
  | advanceTime side time =>
      exact forall_update side ((hsource side).advanceTime time)
        ((htarget side).of_sameTarget (sameTarget_advanceTime time))

end Network

end LibBench.Transport
