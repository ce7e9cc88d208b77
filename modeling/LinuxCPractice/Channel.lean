import Mathlib.Data.List.Perm.Subperm

/-!
# Messages in flight

A channel that may lose and reorder messages, seen from outside: what was sent,
what is in flight, what was delivered and what was lost, as lists of which only
the elements and their numbers matter.
-/

namespace LinuxCPractice
namespace Channel

open List

variable {Message : Type*}

/-- Every message sent is in flight, delivered or lost, and nothing else is. -/
def Accounted (sent inFlight delivered lost : List Message) : Prop :=
  sent ~ inFlight ++ (delivered ++ lost)

namespace Accounted

variable {sent inFlight delivered lost : List Message} {message : Message}

theorem nil : Accounted ([] : List Message) [] [] [] := .refl _

theorem send (accounted : Accounted sent inFlight delivered lost) :
    Accounted (sent ++ [message]) (message :: inFlight) delivered lost :=
  (perm_append_singleton message sent).trans (accounted.cons message)

/-- A message that is lost on being sent. -/
theorem drop (accounted : Accounted sent inFlight delivered lost) :
    Accounted (sent ++ [message]) inFlight delivered (message :: lost) := by
  unfold Accounted at accounted ⊢
  calc sent ++ [message]
      ~ message :: sent := perm_append_singleton message sent
    _ ~ message :: (inFlight ++ (delivered ++ lost)) := accounted.cons message
    _ ~ message :: ((inFlight ++ delivered) ++ lost) := by rw [append_assoc]
    _ ~ (inFlight ++ delivered) ++ message :: lost := perm_middle.symm
    _ ~ inFlight ++ (delivered ++ message :: lost) := by rw [append_assoc]

variable [BEq Message] [LawfulBEq Message]

/-- What happens to a message that leaves the channel. -/
theorem leave (accounted : Accounted sent inFlight delivered lost)
    (travels : message ∈ inFlight) :
    sent ~ inFlight.erase message ++ message :: (delivered ++ lost) := by
  calc sent
      ~ inFlight ++ (delivered ++ lost) := accounted
    _ ~ (message :: inFlight.erase message) ++ (delivered ++ lost) :=
        (perm_cons_erase travels).append_right _
    _ ~ inFlight.erase message ++ message :: (delivered ++ lost) :=
      perm_middle.symm

theorem deliver (accounted : Accounted sent inFlight delivered lost)
    (travels : message ∈ inFlight) :
    Accounted sent (inFlight.erase message) (delivered ++ [message]) lost := by
  refine (accounted.leave travels).trans (Perm.append_left _ ?_)
  rw [append_assoc, singleton_append]
  exact perm_middle.symm

theorem lose (accounted : Accounted sent inFlight delivered lost)
    (travels : message ∈ inFlight) :
    Accounted sent (inFlight.erase message) delivered (message :: lost) :=
  (accounted.leave travels).trans (perm_middle.symm.append_left _)

omit [BEq Message] [LawfulBEq Message] in
/-- Nothing is delivered that was not sent, and nothing more often than sent. -/
theorem delivered_subperm (accounted : Accounted sent inFlight delivered lost) :
    delivered <+~ sent := by
  have within : delivered <+~ inFlight ++ (delivered ++ lost) :=
    ((sublist_append_left delivered lost).trans
      (sublist_append_right _ _)).subperm
  exact (Perm.subperm_left accounted).mpr within

end Accounted

/-- What is contained in a list stays so under a function. -/
theorem subperm_map {Image : Type*} {first second : List Message}
    (image : Message → Image)
    (within : first <+~ second) : first.map image <+~ second.map image := by
  obtain ⟨middle, same, sublist⟩ := within
  exact ⟨middle.map image, same.map image, sublist.map image⟩

end Channel
end LinuxCPractice
