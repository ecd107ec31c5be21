import Igit.Economic.Ledger

/-!
# What a sponsorship pays out

A `sponsor` call pays the fee, the floored share of every split it finds in the table, and what is
left to the owner. The accounts it pays may change the table before the loop reads it again, so the
payments are followed stage by stage: `settle_split` says that from any stage on they bring what
was distributed before up to the distributable amount, whatever the payees do. When nobody calls
back the table stays as it was, the shares together stay below the distributable amount
(`shares_le`), and the last subtraction does not fail.
-/

namespace Igit

open Fallible

/-! ## Shares -/

/-- The share of a split. -/
def Split.share (distributable : Nat) (split : Split) : Nat :=
  distributable * split.bps / bpsDenominator

/-- The shares of a table together. -/
def shares (distributable : Nat) (splits : List Split) : Nat :=
  (splits.map (Split.share distributable)).sum

/-- The payments of a table: its shares, without those that are zero. -/
def sharePayments (distributable : Nat) (splits : List Split) : List Suite.Payment :=
  (splits.map fun split => ⟨split.recipient, split.share distributable⟩).filter fun payment =>
    decide (payment.amount ≠ 0)

theorem sharePayments_of_shares_eq_zero {distributable : Nat} {splits : List Split}
    (h : shares distributable splits = 0) : sharePayments distributable splits = [] := by
  rw [shares, List.sum_eq_zero_iff] at h
  simpa [sharePayments] using h

/-- Rounding down never gives away more than the bps say. -/
theorem shares_mul_le {distributable : Nat} {splits : List Split} :
    shares distributable splits * bpsDenominator ≤ distributable * bpsTotal splits := by
  induction splits with
  | nil => simp [shares]
  | cons split rest ih =>
      have hshare : split.share distributable * bpsDenominator ≤ distributable * split.bps :=
        Nat.div_mul_le_self _ _
      unfold shares bpsTotal at ih ⊢
      rw [List.map_cons, List.sum_cons, List.map_cons, List.sum_cons, Nat.add_mul, Nat.mul_add]
      omega

/-- The shares of a valid table fit the distributable amount. -/
theorem ValidSplits.shares_le {owner : Address} {splits : List Split} (h : ValidSplits owner splits)
    (distributable : Nat) : shares distributable splits ≤ distributable := by
  have hscaled : shares distributable splits * bpsDenominator ≤ distributable * bpsDenominator :=
    shares_mul_le.trans (Nat.mul_le_mul_left _ h.total_le)
  exact Nat.le_of_mul_le_mul_right hscaled (by decide)

/-! ## The payout loop -/

namespace Suite

variable {s : Suite} {distributable : Nat}

/-- The loop stops at the first share that is not zero. -/
theorem findPayout_some {splits : List Split} {i j : Nat} {recipient : Address} {amount : Nat}
    (h : findPayout distributable i splits = .ok (some (j, recipient, amount))) :
    ∃ skipped split rest, splits = skipped ++ split :: rest ∧ shares distributable skipped = 0 ∧
      split.share distributable ≠ 0 ∧ j = i + skipped.length ∧ recipient = split.recipient ∧
      amount = split.share distributable := by
  induction splits generalizing i with
  | nil => simp [findPayout] at h
  | cons split rest ih =>
      simp only [findPayout, bind_eq_ok, checkedMul_eq_ok] at h
      obtain ⟨_, ⟨-, rfl⟩, h⟩ := h
      by_cases hzero : distributable * split.bps / bpsDenominator = 0
      · rw [if_neg (not_not.mpr hzero)] at h
        obtain ⟨skipped, found, after, rfl, hskipped, hshare, rfl, hfound⟩ := ih h
        refine ⟨split :: skipped, found, after, rfl, ?_, hshare, ?_, hfound⟩
        · unfold shares at hskipped ⊢
          rw [List.map_cons, List.sum_cons, hskipped, Nat.add_zero]
          exact hzero
        · rw [List.length_cons]
          omega
      · rw [if_pos hzero, pure_eq_ok, Option.some.injEq, Prod.mk.injEq, Prod.mk.injEq] at h
        obtain ⟨rfl, rfl, rfl⟩ := h
        exact ⟨[], split, rest, rfl, rfl, hzero, rfl, rfl, rfl⟩

/-- The loop ends when all shares are zero. -/
theorem findPayout_none {splits : List Split} {i : Nat}
    (h : findPayout distributable i splits = .ok none) : shares distributable splits = 0 := by
  induction splits generalizing i with
  | nil => rfl
  | cons split rest ih =>
      simp only [findPayout, bind_eq_ok, checkedMul_eq_ok] at h
      obtain ⟨_, ⟨-, rfl⟩, h⟩ := h
      by_cases hzero : distributable * split.bps / bpsDenominator = 0
      · rw [if_neg (not_not.mpr hzero)] at h
        unfold shares at ih ⊢
        rw [List.map_cons, List.sum_cons, ih h, Nat.add_zero]
        exact hzero
      · rw [if_pos hzero] at h
        cases h

/-- Only a product that does not fit 256 bits stops the loop. -/
theorem findPayout_error {splits : List Split} {i : Nat} {reason : Revert}
    (h : findPayout distributable i splits = .error reason) :
    reason = .panic 0x11 ∧ ∃ split ∈ splits, uint256Max < distributable * split.bps := by
  induction splits generalizing i with
  | nil => cases h
  | cons split rest ih =>
      by_cases hfits : distributable * split.bps ≤ uint256Max
      · have hproduct : checkedMul distributable split.bps = .ok (distributable * split.bps) :=
          checkedMul_eq_ok.mpr ⟨hfits, rfl⟩
        rw [findPayout, hproduct] at h
        change (if distributable * split.bps / bpsDenominator ≠ 0 then _
          else findPayout distributable (i + 1) rest) = _ at h
        split at h
        · cases h
        · obtain ⟨hreason, found, hfound, hlarge⟩ := ih h
          exact ⟨hreason, found, List.mem_cons_of_mem _ hfound, hlarge⟩
      · have hlarge : uint256Max < distributable * split.bps := Nat.lt_of_not_le hfits
        have hproduct : checkedMul distributable split.bps = .error (.panic 0x11) := by
          rw [checkedMul, bind_eq_error, revertIf_eq_error]
          exact .inl ⟨hlarge, rfl⟩
        rw [findPayout, hproduct] at h
        exact ⟨(Except.error.inj h).symm, split, List.mem_cons_self, hlarge⟩

/-- A payout from split `i` on gives the first share that is not zero and goes on after it, or gives
the owner what is left. -/
theorem splitPayout_ok {settlement : Settlement} {i distributed : Nat} {payment : Payment}
    {following : Option Stage}
    (h : s.splitPayout settlement i distributed = .ok (payment, following)) :
    (∃ skipped split j, (s.economic.splits settlement.repoId).drop i =
        skipped ++ split :: (s.economic.splits settlement.repoId).drop j ∧
      shares settlement.distributable skipped = 0 ∧ split.share settlement.distributable ≠ 0 ∧
      payment = ⟨split.recipient, split.share settlement.distributable⟩ ∧
      following = some (.split j (distributed + payment.amount))) ∨
    (shares settlement.distributable ((s.economic.splits settlement.repoId).drop i) = 0 ∧
      distributed + payment.amount = settlement.distributable ∧
      payment.recipient = settlement.owner ∧ following = none) := by
  simp only [splitPayout, bind_eq_ok] at h
  obtain ⟨payout, hpayout, h⟩ := h
  cases payout with
  | some found =>
      obtain ⟨j, recipient, amount⟩ := found
      obtain ⟨skipped, split, rest, hdrop, hskipped, hshare, rfl, rfl, rfl⟩ := findPayout_some hpayout
      simp only [bind_eq_ok, checkedAdd_eq_ok, pure_eq_ok, Prod.mk.injEq] at h
      obtain ⟨_, ⟨-, rfl⟩, rfl, rfl⟩ := h
      have hrest : (s.economic.splits settlement.repoId).drop (i + skipped.length + 1) = rest := by
        rw [Nat.add_assoc, ← List.drop_drop, hdrop, ← List.drop_drop, List.drop_left]
        rfl
      exact .inl ⟨skipped, split, _, by rw [hdrop, hrest], hskipped, hshare, rfl, rfl⟩
  | none =>
      simp only [bind_eq_ok, checkedSub_eq_ok, pure_eq_ok, Prod.mk.injEq] at h
      obtain ⟨_, ⟨hle, rfl⟩, rfl, rfl⟩ := h
      exact .inr ⟨findPayout_none hpayout, Nat.add_sub_cancel' hle, rfl, rfl⟩

end Suite

/-! ## Whole settlements -/

/-- The amounts of payments together. -/
def totalPaid (payments : List Suite.Payment) : Nat := (payments.map Suite.Payment.amount).sum

/-- None of the accounts calls back. -/
def Payees.Quiet {d : Deployment} : Payees d → Prop
  | .nil => True
  | .cons calls _ rest => calls = .nil ∧ rest.Quiet

/-- Shares of what is distributed, each of a split that stands in the table while the payees are paid
from a world on. -/
def Suite.Settlement.SharesOf (settlement : Suite.Settlement) (d : Deployment) (w : World)
    (paid : List Suite.Payment) : Prop :=
  ∀ payment ∈ paid, ∃ during split, Leads d w during ∧
    split ∈ during.suite.economic.splits settlement.repoId ∧
    payment = ⟨split.recipient, settlement.distributable * split.bps / bpsDenominator⟩

theorem Suite.Settlement.SharesOf.leads {settlement : Suite.Settlement} {d : Deployment}
    {w w' : World} {paid : List Suite.Payment} (h : settlement.SharesOf d w' paid)
    (hleads : Leads d w w') : settlement.SharesOf d w paid := by
  intro payment hpayment
  obtain ⟨during, split, hduring, hsplit⟩ := h payment hpayment
  exact ⟨during, split, hleads.trans hduring, hsplit⟩

/-- From split `i` on a settlement pays shares and then the owner, and brings what was distributed
up to the distributable amount. When nobody calls back, the shares are those of the table. -/
theorem Payees.settle_split {d : Deployment} {settlement : Suite.Settlement} {i distributed : Nat}
    {w w' : World} {payments : List Suite.Payment} (payees : Payees d)
    (h : payees.settle settlement (.split i distributed) w = .ok (w', payments)) :
    ∃ paid remainder, payments = paid ++ [⟨settlement.owner, remainder⟩] ∧
      distributed + totalPaid paid + remainder = settlement.distributable ∧
      settlement.SharesOf d w paid ∧
      (payees.Quiet → paid = sharePayments settlement.distributable
        ((w.suite.economic.splits settlement.repoId).drop i)) := by
  match payees with
  | .nil => simp [Payees.settle] at h
  | .cons calls accepts rest =>
      simp only [Payees.settle, bind_eq_ok, revertIf_eq_ok, exists_unit] at h
      obtain ⟨⟨payment, following⟩, hpayout, -, h⟩ := h
      rcases Suite.splitPayout_ok hpayout with
        ⟨skipped, split, j, hdrop, hskipped, hshare, rfl, rfl⟩ | ⟨hnone, hrest, howner, rfl⟩
      · simp only [bind_eq_ok, pure_eq_ok, Prod.mk.injEq] at h
        obtain ⟨⟨settled, later⟩, hlater, rfl, rfl⟩ := h
        obtain ⟨paid, remainder, rfl, hsum, hpaid, hquiet⟩ := rest.settle_split hlater
        refine ⟨_ :: paid, remainder, rfl, ?_, List.forall_mem_cons.mpr ⟨?_, hpaid.leads calls.exec_steps⟩,
          fun hall => ?_⟩
        · unfold totalPaid at hsum ⊢
          rw [List.map_cons, List.sum_cons, ← Nat.add_assoc]
          exact hsum
        · have hsplit : split ∈ (w.suite.economic.splits settlement.repoId).drop i := by simp [hdrop]
          exact ⟨w, split, .refl, List.mem_of_mem_drop hsplit, rfl⟩
        · obtain ⟨rfl, hrest⟩ := hall
          have hzero := sharePayments_of_shares_eq_zero hskipped
          rw [Calls.exec] at hquiet
          rw [hquiet hrest, hdrop]
          unfold sharePayments at hzero ⊢
          rw [List.map_append, List.filter_append, hzero, List.map_cons,
            List.filter_cons_of_pos (by simpa using hshare)]
          rfl
      · simp only [pure_eq_ok, Prod.mk.injEq] at h
        obtain ⟨rfl, rfl⟩ := h
        refine ⟨[], payment.amount, ?_, hrest, by simp [Suite.Settlement.SharesOf], fun _ => ?_⟩
        · rw [← howner]
          rfl
        · exact (sharePayments_of_shares_eq_zero hnone).symm

/-- A settlement pays the fee first, if there is one. -/
theorem Payees.settle_treasury {d : Deployment} {settlement : Suite.Settlement}
    {w w' : World} {payments : List Suite.Payment} (payees : Payees d)
    (h : payees.settle settlement .treasury w = .ok (w', payments)) :
    ∃ paid remainder, payments =
        (if settlement.fee ≠ 0 then [⟨settlement.treasury, settlement.fee⟩] else []) ++ paid ++
          [⟨settlement.owner, remainder⟩] ∧
      totalPaid paid + remainder = settlement.distributable ∧
      settlement.SharesOf d w paid ∧
      (payees.Quiet → paid = sharePayments settlement.distributable
        (w.suite.economic.splits settlement.repoId)) := by
  by_cases hfee : settlement.fee = 0
  · have hsame : payees.settle settlement .treasury w = payees.settle settlement (.split 0 0) w := by
      cases payees with
      | nil => rfl
      | cons calls accepts rest => simp [Payees.settle, Suite.nextPayout, hfee]
    rw [hsame] at h
    obtain ⟨paid, remainder, rfl, hsum, hpaid, hquiet⟩ := payees.settle_split h
    refine ⟨paid, remainder, ?_, by omega, hpaid, hquiet⟩
    rw [if_neg (not_not.mpr hfee), List.nil_append]
  · cases payees with
    | nil => simp [Payees.settle] at h
    | cons calls accepts rest =>
        simp only [Payees.settle, Suite.nextPayout, if_pos hfee, bind_eq_ok, revertIf_eq_ok,
          exists_unit, pure_eq_ok] at h
        obtain ⟨_, rfl, -, h⟩ := h
        simp only [bind_eq_ok, pure_eq_ok, Prod.mk.injEq] at h
        obtain ⟨⟨settled, later⟩, hlater, rfl, rfl⟩ := h
        obtain ⟨paid, remainder, rfl, hsum, hpaid, hquiet⟩ := rest.settle_split hlater
        refine ⟨paid, remainder, ?_, by omega, hpaid.leads calls.exec_steps, fun hall => ?_⟩
        · rw [if_pos hfee]
          rfl
        · obtain ⟨rfl, hrest⟩ := hall
          rw [Calls.exec] at hquiet
          exact hquiet hrest

/-! ## Without callbacks -/

/-- A share whose product does not fit 256 bits. -/
def Suite.ProductOverflow (s : Suite) (settlement : Suite.Settlement) (reason : Revert) : Prop :=
  reason = .panic 0x11 ∧
    ∃ split ∈ s.economic.splits settlement.repoId, uint256Max < settlement.distributable * split.bps

/-- The failures of a settlement other than an underflow of the remainder: a payee that does not
return or refuses, or a product. -/
def Suite.SettlementFailure (s : Suite) (settlement : Suite.Settlement) (reason : Revert) : Prop :=
  reason = .gasExhausted ∨ (∃ recipient amount, reason = .payoutFailed recipient amount) ∨
    s.ProductOverflow settlement reason

namespace Suite

variable {s : Suite} {settlement : Settlement}

/-- What has been distributed and the shares still to come fit the distributable amount. -/
def Affordable (s : Suite) (settlement : Settlement) : Stage → Prop
  | .treasury => shares settlement.distributable (s.economic.splits settlement.repoId) ≤
      settlement.distributable
  | .split i distributed => distributed + shares settlement.distributable
      ((s.economic.splits settlement.repoId).drop i) ≤ settlement.distributable

/-- An affordable payout fails only for a product. -/
theorem splitPayout_refuses {i distributed : Nat}
    (h : s.Affordable settlement (.split i distributed))
    (hbound : settlement.distributable ≤ uint256Max) :
    Refuses (s.splitPayout settlement i distributed) (s.ProductOverflow settlement) := by
  have hfits : distributed + shares settlement.distributable
      ((s.economic.splits settlement.repoId).drop i) ≤ settlement.distributable := h
  rw [splitPayout, refuses_bind]
  refine ⟨fun reason hreason => ?_, fun payout hpayout => ?_⟩
  · obtain ⟨hpanic, split, hmem, hlarge⟩ := findPayout_error hreason
    exact ⟨hpanic, split, List.mem_of_mem_drop hmem, hlarge⟩
  · cases payout with
    | some found =>
        obtain ⟨j, recipient, amount⟩ := found
        obtain ⟨skipped, split, rest, hdrop, -, -, -, -, rfl⟩ := findPayout_some hpayout
        have hshare : split.share settlement.distributable ≤ shares settlement.distributable
            ((s.economic.splits settlement.repoId).drop i) := by
          rw [hdrop]
          exact List.single_le_sum (by simp) _ (List.mem_map_of_mem (by simp))
        have hadded : checkedAdd distributed (split.share settlement.distributable) = .ok _ :=
          checkedAdd_eq_ok.mpr ⟨by omega, rfl⟩
        show Refuses (checkedAdd distributed (split.share settlement.distributable) >>= _) _
        rw [hadded]
        exact refuses_pure
    | none =>
        have hremainder : checkedSub settlement.distributable distributed = .ok _ :=
          checkedSub_eq_ok.mpr ⟨by omega, rfl⟩
        show Refuses (checkedSub settlement.distributable distributed >>= _) _
        rw [hremainder]
        exact refuses_pure

/-- What follows an affordable payout is affordable. -/
theorem splitPayout_affordable {i distributed : Nat}
    (h : s.Affordable settlement (.split i distributed)) {payment : Payment} {stage : Stage}
    (hpayout : s.splitPayout settlement i distributed = .ok (payment, some stage)) :
    s.Affordable settlement stage := by
  rcases splitPayout_ok hpayout with ⟨skipped, split, j, hdrop, hskipped, -, rfl, hstage⟩ | hlast
  · obtain rfl := Option.some.inj hstage
    have hfits : distributed + shares settlement.distributable
        ((s.economic.splits settlement.repoId).drop i) ≤ settlement.distributable := h
    show distributed + split.share settlement.distributable + shares settlement.distributable
      ((s.economic.splits settlement.repoId).drop j) ≤ _
    rw [hdrop] at hfits
    unfold shares at hfits hskipped ⊢
    rw [List.map_append, List.sum_append, hskipped, List.map_cons, List.sum_cons] at hfits
    omega
  · cases hlast.2.2.2

/-- The same for every payout of a settlement. -/
theorem nextPayout_affordable {stage : Stage} (h : s.Affordable settlement stage)
    (hbound : settlement.distributable ≤ uint256Max) :
    Refuses (s.nextPayout settlement stage) (s.ProductOverflow settlement) ∧
    ∀ payment following, s.nextPayout settlement stage = .ok (payment, some following) →
      s.Affordable settlement following := by
  have hstart : s.Affordable settlement .treasury → s.Affordable settlement (.split 0 0) := by
    intro hall
    show 0 + shares settlement.distributable ((s.economic.splits settlement.repoId).drop 0) ≤ _
    rw [Nat.zero_add]
    exact hall
  cases stage with
  | treasury =>
      by_cases hfee : settlement.fee = 0
      · rw [nextPayout, if_neg (not_not.mpr hfee)]
        exact ⟨splitPayout_refuses (hstart h) hbound,
          fun _ _ hpayout => splitPayout_affordable (hstart h) hpayout⟩
      · rw [nextPayout, if_pos hfee]
        refine ⟨refuses_pure, fun payment following hpayout => ?_⟩
        simp only [pure_eq_ok, Prod.mk.injEq, Option.some.injEq] at hpayout
        rw [← hpayout.2]
        exact hstart h
  | split i distributed =>
      exact ⟨splitPayout_refuses h hbound, fun _ _ hpayout => splitPayout_affordable h hpayout⟩

end Suite

/-- When nobody calls back, the remainder of an affordable settlement never underflows. -/
theorem Payees.settle_quiet {d : Deployment} {settlement : Suite.Settlement} {stage : Suite.Stage}
    {w : World} (payees : Payees d) (hquiet : payees.Quiet)
    (hbound : settlement.distributable ≤ uint256Max) (h : w.suite.Affordable settlement stage) :
    Refuses (payees.settle settlement stage w) (w.suite.SettlementFailure settlement) := by
  match payees with
  | .nil =>
      rw [Payees.settle, refuses_throw]
      exact .inl rfl
  | .cons calls accepts rest =>
      obtain ⟨rfl, hrest⟩ := hquiet
      obtain ⟨hrefuses, hfollowing⟩ := Suite.nextPayout_affordable h hbound
      rw [Payees.settle, refuses_bind]
      refine ⟨fun reason hreason => .inr (.inr (hrefuses reason hreason)), fun payout hpayout => ?_⟩
      obtain ⟨payment, following⟩ := payout
      rw [refuses_bind]
      refine ⟨refuses_revertIf.mpr fun _ => .inr (.inl ⟨_, _, rfl⟩), fun _ _ => ?_⟩
      cases following with
      | none => exact refuses_pure
      | some following =>
          show Refuses (rest.settle settlement following (Calls.exec w .nil) >>= _) _
          rw [refuses_bind]
          refine ⟨?_, fun _ _ => refuses_pure⟩
          rw [Calls.exec]
          exact rest.settle_quiet hrest hbound (hfollowing _ _ hpayout)

/-- The world in which the payouts of a `sponsor` call begin. -/
def World.sponsoredBy {d : Deployment} (w : World) (suite : Suite) (sender : Account d)
    (repoId : Bytes32) (message : Bytes) (value : Nat) : World :=
  ⟨suite, w.now, w.history ++ [⟨sender.address, w.now, .sponsor repoId message value⟩]⟩

/-- A `sponsor` call past its checks is its settlement, and the lock opened again. -/
theorem Tx.exec_sponsor {d : Deployment} {w : World} {sender : Account d} {repoId : Bytes32}
    {message : Bytes} {value : Nat} {suite : Suite} {settlement : Suite.Settlement}
    (hopen : w.suite.openSponsor d repoId message value = .ok (suite, settlement))
    (payees : Payees d) :
    (Tx.sponsor sender repoId message value payees).exec w =
      (payees.settle settlement .treasury (w.sponsoredBy suite sender repoId message value) >>=
        fun result => result.1.next (.closeSponsor : Move d)) := by
  rw [Tx.exec, World.next, hopen]
  rfl

/-- The payments of a `sponsor` call: the fee to the treasury, floored shares of the rest to the split
recipients of the table that is read, and what is left to the owner. -/
structure Suite.Settlement.Pays (settlement : Suite.Settlement) (d : Deployment) (w : World)
    (payments paid : List Suite.Payment) (remainder : Nat) : Prop where
  payments_eq : payments =
    (if settlement.fee ≠ 0 then [⟨settlement.treasury, settlement.fee⟩] else []) ++ paid ++
      [⟨settlement.owner, remainder⟩]
  shares : settlement.SharesOf d w paid

/-- A `sponsor` call that begins to pay leaves the stored split table as it was. -/
theorem Suite.openSponsor_splits {d : Deployment} {s : Suite} {message : Bytes} {repoId : Bytes32}
    {value : Nat} {opened : Suite × Settlement}
    (h : s.openSponsor d repoId message value = .ok opened) :
    opened.1.economic.splits = s.economic.splits := by
  obtain ⟨-, -, fee, distributable, -, -, -, rfl⟩ := openSponsor_ok opened h
  exact (Economic.withTotal_splits d.keccak _ repoId injDenom value).1

/-- In every reachable state, a `sponsor` call that succeeds pays its value out exactly, whatever
the accounts it pays do in between. When none of them calls back, the shares are those of the stored
table that are not zero, and a call that gets past its checks fails only for a payee that does not
return or refuses, or for a product too large for 256 bits, and so never for the remainder. -/
theorem sponsor_pays_value_exactly {d : Deployment} {w : World} (h : Reachable d w)
    (sender : Account d) (repoId : Bytes32) (message : Bytes) (value : Nat) (payees : Payees d) :
    (∀ w', (Tx.sponsor sender repoId message value payees).exec w = .ok w' →
      ∃ suite settlement settled payments paid remainder,
        w.suite.openSponsor d repoId message value = .ok (suite, settlement) ∧
        payees.settle settlement .treasury (w.sponsoredBy suite sender repoId message value) =
          .ok (settled, payments) ∧
        settlement.Pays d (w.sponsoredBy suite sender repoId message value) payments paid remainder ∧
        (payees.Quiet → paid = sharePayments settlement.distributable
          (w.suite.economic.splits repoId)) ∧
        settlement.fee + settlement.distributable = value ∧
        settlement.fee + totalPaid paid + remainder = value ∧ totalPaid payments = value) ∧
    (payees.Quiet → ∀ reason,
      (Tx.sponsor sender repoId message value payees).exec w = .error reason →
      w.suite.openSponsor d repoId message value = .error reason ∨
        ∃ suite settlement, w.suite.openSponsor d repoId message value = .ok (suite, settlement) ∧
          suite.SettlementFailure settlement reason) := by
  cases hopen : w.suite.openSponsor d repoId message value with
  | error failure =>
      have hfails : (Tx.sponsor sender repoId message value payees).exec w = .error failure := by
        rw [Tx.exec, hopen]
        rfl
      rw [hfails]
      exact ⟨fun w' hexec => (by cases hexec), fun _ reason hexec => .inl (by rw [Except.error.inj hexec])⟩
  | ok opening =>
      obtain ⟨suite, settlement⟩ := opening
      obtain ⟨-, hle, fee, distributable, -, hvalue, -, hopened⟩ := Suite.openSponsor_ok _ hopen
      obtain ⟨rfl, rfl⟩ := Prod.mk.inj hopened
      rw [Tx.exec_sponsor hopen]
      constructor
      · intro w' hexec
        rw [bind_eq_ok] at hexec
        obtain ⟨⟨settled, payments⟩, hsettle, -⟩ := hexec
        obtain ⟨paid, remainder, hpayments, hsum, hpaid, hquiet⟩ := payees.settle_treasury hsettle
        have htotal : totalPaid payments = fee + totalPaid paid + remainder := by
          rw [hpayments]
          unfold totalPaid
          by_cases hfee : fee = 0
          · simp [hfee]
          · simp [hfee, Nat.add_assoc]
        have hsum : totalPaid paid + remainder = distributable := hsum
        refine ⟨_, _, settled, payments, paid, remainder, rfl, hsettle, ⟨hpayments, hpaid⟩, fun hall => ?_,
          hvalue, ?_, ?_⟩
        · rw [hquiet hall, ← Suite.openSponsor_splits hopen]
          rfl
        · show fee + totalPaid paid + remainder = value
          omega
        · omega
      · intro hquiet reason hexec
        refine .inr ⟨_, _, rfl, ?_⟩
        rw [bind_eq_error] at hexec
        rcases hexec with hsettle | ⟨settled, -, hclose⟩
        · refine payees.settle_quiet hquiet ?_ ?_ reason hsettle
          · show distributable ≤ uint256Max
            omega
          · have hafford := (h.splitsSound.valid repoId).shares_le distributable
            rw [← Suite.openSponsor_splits hopen] at hafford
            exact hafford
        · cases hclose

namespace Sample

/-- `alice` shares the revenue of a project. -/
def shared : World := genesis.run
  [callAfter 1 alice (.core (.createRepository projectName [] [])),
   callAfter 1 alice (.economic (.setRevenueSplits project [bob.address, carol.address] [2500, 1000]))]

theorem shared_reachable : Reachable deployment shared := genesis_reachable _

/-- While `bob` is paid, `alice` replaces the split table. -/
def restless : Payees deployment :=
  .cons .nil true (.cons (.cons (.call alice (.economic
    (.setRevenueSplits project [carol.address] [9000]))) .nil) true (.cons .nil true .nil))

/-- The sponsorship succeeds all the same, and pays out 1000. -/
theorem restless_paid :
    ((Tx.sponsor operator project [] 1000 restless).exec shared).isOk = true ∧
      ∃ suite settlement settled payments,
        restless.settle settlement .treasury (shared.sponsoredBy suite operator project [] 1000) =
          .ok (settled, payments) ∧
        totalPaid payments = 1000 := by
  have hok : ((Tx.sponsor operator project [] 1000 restless).exec shared).isOk = true := by
    decide +kernel
  obtain ⟨w', hexec⟩ := exists_of_isOk hok
  obtain ⟨suite, settlement, settled, payments, _, _, -, hsettle, -, -, -, -, htotal⟩ :=
    (sponsor_pays_value_exactly shared_reachable operator project [] 1000 restless).1 w' hexec
  exact ⟨hok, suite, settlement, settled, payments, hsettle, htotal⟩

end Sample

end Igit
