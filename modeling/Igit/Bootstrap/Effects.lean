import Igit.Bootstrap.Books

/-!
# What a run does to the modules

Before activation only the bootstrap functions succeed, and all they do to a module is to store
records that fit and, once, to open the window for username claims. Afterwards they do nothing. An
invariant of the modules is therefore proved in two parts: for a record that fits, and for the effects
of the calls of an active suite (`Reachable.suite_invariant`).
-/

namespace Igit

open Fallible

namespace Suite

variable {d : Deployment} {s s' : Suite}

/-- Records leave the directory alone. -/
theorem isActive_foldl_stored {keccak : Keccak} {records : List ImportRecord} :
    (records.foldl (stored keccak) s).IsActive ↔ s.IsActive := by
  have hsame : (records.foldl (stored keccak) s).directory = s.directory :=
    congrArg Setup.directory setup_foldl_stored
  rw [IsActive, IsActive, hsame]

/-- What every record that fits keeps is kept by records that fit in turn. -/
theorem FitInTurn.preserves {keccak : Keccak} {P : Suite → Prop}
    (hrecord : ∀ s record, ¬ s.IsActive → record.WellFormed → s.Fits keccak record → P s →
      P (s.stored keccak record)) {records : List ImportRecord} (hinactive : ¬ s.IsActive)
    (hfit : s.FitInTurn keccak records) (hs : P s) : P (records.foldl (stored keccak) s) := by
  refine (along_preserves (P := fun s => ¬ s.IsActive ∧ P s) ?_ hfit ⟨hinactive, hs⟩).2
  rintro before record ⟨hformed, hfits⟩ ⟨hbefore, hP⟩
  have hsame : ([record].foldl (stored keccak) before).IsActive ↔ before.IsActive :=
    isActive_foldl_stored
  exact ⟨mt hsame.mp hbefore, hrecord before record hbefore hformed hfits hP⟩

/-- A property of the modules that records that fit keep, and calls of an active suite. It may look at
the books as far as the suite being active goes, and not at the economic module. -/
structure Preserved (d : Deployment) (P : Suite → Prop) : Prop where
  books : ∀ s u, (s.IsActive → u.directory.state = .active) → P s → P (s.withSetup u)
  claims : ∀ s deadline, ¬ s.IsActive → P s →
    P (s.setUsername { s.username with originalOwnerClaimDeadline := deadline })
  record : ∀ s record, ¬ s.IsActive → record.WellFormed → s.Fits d.keccak record → P s →
    P (s.stored d.keccak record)
  call : ∀ (w : World) (sender : Account d) (op : Op) (s' : Suite), Reachable d w →
    w.suite.IsActive → Effect d w.suite sender.address w.now op s' → P w.suite → P s'
  economic : ∀ s e, P s → P (s.setEconomic e)

/-- A step of the bootstrap keeps it. -/
theorem Preserved.bootstrap {P : Suite → Prop} (hP : Preserved d P) {op : BootstrapOp}
    (h : BootstrapStep d s op s') (hs : P s) : P s' := by
  have hbooks : ∀ {t : Suite} {u : Setup}, ¬ t.IsActive → P t → P (t.withSetup u) :=
    fun hinactive ht => hP.books _ _ (fun hactive => absurd hactive hinactive) ht
  cases h with
  | books hinactive => exact hbooks hinactive hs
  | openClaims hinactive deadline => exact hbooks hinactive (hP.claims _ deadline hinactive hs)
  | batch hinactive hdecode hfit =>
      exact hbooks (mt isActive_foldl_stored.mp hinactive) (hfit.preserves hP.record hinactive hs)

end Suite

variable {d : Deployment} {P : Suite → Prop}

/-- Such a property is kept from any reachable state on. -/
theorem Reachable.suite_preserves {start w : World} (h : Reachable d start)
    (hP : Suite.Preserved d P) (hrun : Leads d start w) (hstart : P start.suite) : P w.suite := by
  refine (reflTransGen_preserves (P := fun w => Reachable d w ∧ P w.suite) ?_ hrun ⟨h, hstart⟩).2
  rintro before after ⟨move, hnext⟩ ⟨hreach, hbefore⟩
  refine ⟨hreach.next hnext, ?_⟩
  cases hreach.effect hnext with
  | call hactive heffect => exact hP.call before _ _ _ hreach hactive heffect hbefore
  | bootstrap hstep => exact hP.bootstrap hstep hbefore
  | openSponsor => exact hP.economic _ _ hbefore
  | closeSponsor => exact hP.economic _ _ hbefore
  | wait => exact hbefore

/-- Such a property holds in every run when it holds at its start. -/
theorem Reachable.suite_invariant {w : World} (h : Reachable d w) (hinitial : P d.initialSuite)
    (hP : Suite.Preserved d P) : P w.suite :=
  Reachable.suite_preserves .refl hP h hinitial

end Igit
