import CoreRaT.Spec.TcpRouter

/-!
# `CoreRaT.Proofs.Router.Registry`: lookups after a registry operation

`MailboxRegistry::find` after `add`, `remove` and `remove_all`. `add` fills a free slot and
leaves an entry that exists, `remove` goes by the mailbox id alone, and `remove_all` goes by
the connection.
-/

set_option autoImplicit false

namespace CoreRaT.Spec.MailboxRegistry

/-- A lookup after `add`. -/
theorem find_add (reg : MailboxRegistry) (id j : MailboxId) (k : ConnId) :
    (reg.add id k).2.find j
      = if reg.find id = none ∧ j = id then some k else reg.find j := by
  unfold add
  split
  · rename_i hfree
    have hfree' : reg.find id = none := hfree
    simp only [find, Function.update_apply] at hfree' ⊢
    simp [hfree']
  · rename_i k' htaken
    have htaken' : reg.find id = some k' := htaken
    simp [htaken']

/-- `add` succeeds exactly on a free mailbox. -/
theorem add_eq_true_iff (reg : MailboxRegistry) (id : MailboxId) (k : ConnId) :
    (reg.add id k).1 = true ↔ reg.find id = none := by
  simp only [add, find]
  cases h : reg.table id <;> simp

/-- A lookup after `remove`. -/
theorem find_remove (reg : MailboxRegistry) (id j : MailboxId) :
    (reg.remove id).find j = if j = id then none else reg.find j := by
  simp only [remove, find, Function.update_apply]

/-- A lookup after `remove_all`. -/
theorem find_removeAll (reg : MailboxRegistry) (k : ConnId) (j : MailboxId) :
    (reg.removeAll k).find j = if reg.find j = some k then none else reg.find j := rfl

end CoreRaT.Spec.MailboxRegistry
