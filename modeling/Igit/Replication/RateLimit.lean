import Igit.Evm.Primitives

/-!
# The rate limit of upload authorizations

`allow` of `cli/cmd/igit-replicationd/main.go`, which `issueAuthorization` asks before it signs a
ticket. A window of a minute opens with a request that finds none, and later requests are counted
against it. The request that opens a window is compared with `maxBytes` only, so a window holds
more than `bytesPerMin` exactly when the request that opens it does (`granted_within_limits`).

`Ledger` keeps beside the service's windows what was granted in each of them.
-/

namespace Igit.Replication

/-! ## The limiter -/

/-- The limits of a service. -/
structure Limits where
  maxBytes : Int64
  ratePerMin : Int64
  bytesPerMin : Int64

/-- Limits above zero. -/
structure Limits.Positive (lim : Limits) : Prop where
  maxBytes : 0 < lim.maxBytes
  ratePerMin : 0 < lim.ratePerMin
  bytesPerMin : 0 < lim.bytesPerMin

/-- `rateWindow`. Times are in nanoseconds. -/
structure RateWindow where
  start : Int
  count : Int64
  bytes : Int64

/-- Whose requests share a window. -/
structure Scope where
  subject : Bytes
  owner : Bytes
  repo : Bytes
  deriving DecidableEq, Repr

/-- The key of a window, `subject + "|" + owner + "/" + repo`. -/
def Scope.key (scope : Scope) : Bytes :=
  scope.subject ++ 0x7c :: (scope.owner ++ 0x2f :: scope.repo)

/-- The windows by key. -/
abbrev Windows := Bytes → Option RateWindow

/-- `time.Minute`. -/
def minute : Int := 60000000000

/-- `w == nil || now.Sub(w.start) >= time.Minute`. -/
def Windows.opens (windows : Windows) (now : Int) (key : Bytes) : Bool :=
  match windows key with
  | none => true
  | some w => decide (minute ≤ now - w.start)

/-- `allow`. -/
def Limits.allow (lim : Limits) (windows : Windows) (now : Int) (scope : Scope) (size : Int64) :
    Bool × Windows :=
  if size ≤ 0 ∨ lim.maxBytes < size then (false, windows)
  else if windows.opens now scope.key then
    (true, Function.update windows scope.key (some ⟨now, 1, size⟩))
  else match windows scope.key with
    | none => (false, windows)
    | some w =>
        if lim.ratePerMin ≤ w.count ∨ (0 < lim.bytesPerMin ∧ lim.bytesPerMin - size < w.bytes) then
          (false, windows)
        else
          (true, Function.update windows scope.key (some ⟨w.start, w.count + 1, w.bytes + size⟩))

/-! ## What was granted -/

/-- A call of `allow`. -/
structure AllowCall where
  now : Int
  scope : Scope
  size : Int64

/-- The windows, with what was granted in each. -/
structure Ledger where
  windows : Windows
  grants : Bytes → List (Scope × Int64)

namespace Ledger

/-- A new service. -/
def initial : Ledger := ⟨fun _ => none, fun _ => []⟩

/-- A call, which grants into a new window or into the current one. -/
def step (lim : Limits) (l : Ledger) (c : AllowCall) : Ledger :=
  let answer := lim.allow l.windows c.now c.scope c.size
  if answer.1 then
    ⟨answer.2, Function.update l.grants c.scope.key
      (if l.windows.opens c.now c.scope.key then [(c.scope, c.size)]
        else l.grants c.scope.key ++ [(c.scope, c.size)])⟩
  else ⟨answer.2, l.grants⟩

/-- The ledger after some calls. -/
def after (lim : Limits) (calls : List AllowCall) : Ledger := calls.foldl (step lim) initial

/-- The sizes granted to a scope in its current window. -/
def grantedTo (l : Ledger) (scope : Scope) : List Int :=
  ((l.grants scope.key).filter fun g => decide (g.1 = scope)).map fun g => g.2.toInt

/-- The counters of the windows are the number and the sum of the sizes granted, as integers without
bound. -/
def Exact (l : Ledger) : Prop :=
  ∀ key w, l.windows key = some w → w.count.toInt = (l.grants key).length ∧
    w.bytes.toInt = ((l.grants key).map fun g => g.2.toInt).sum

/-- No scope has more requests in a window than the limit. -/
def CountBounded (lim : Limits) (l : Ledger) : Prop :=
  ∀ scope, ((l.grantedTo scope).length : Int) ≤ lim.ratePerMin.toInt

/-- No scope has more bytes in a window than the limit. -/
def BytesBounded (lim : Limits) (l : Ledger) : Prop :=
  ∀ scope, (l.grantedTo scope).sum ≤ lim.bytesPerMin.toInt

end Ledger

/-! ## One call -/

/-- What a call does. -/
inductive Limits.Allowed (lim : Limits) (windows : Windows) (c : AllowCall) : Bool × Windows → Prop where
  | refused : Allowed lim windows c (false, windows)
  | opened (hsize : 0 < c.size) (hmax : c.size ≤ lim.maxBytes)
      (hopens : windows.opens c.now c.scope.key = true) :
      Allowed lim windows c (true, Function.update windows c.scope.key (some ⟨c.now, 1, c.size⟩))
  | counted (w : RateWindow) (hsize : 0 < c.size) (hmax : c.size ≤ lim.maxBytes)
      (hopens : windows.opens c.now c.scope.key = false) (hwindow : windows c.scope.key = some w)
      (hcount : w.count < lim.ratePerMin)
      (hbytes : 0 < lim.bytesPerMin → w.bytes ≤ lim.bytesPerMin - c.size) :
      Allowed lim windows c (true,
        Function.update windows c.scope.key (some ⟨w.start, w.count + 1, w.bytes + c.size⟩))

theorem Limits.allow_allowed (lim : Limits) (windows : Windows) (c : AllowCall) :
    lim.Allowed windows c (lim.allow windows c.now c.scope c.size) := by
  unfold allow
  by_cases hsize : c.size ≤ 0 ∨ lim.maxBytes < c.size
  · rw [if_pos hsize]
    exact .refused
  rw [if_neg hsize]
  obtain ⟨hpos, hmax⟩ := not_or.mp hsize
  have hpos' : 0 < c.size := Int64.not_le.mp hpos
  have hmax' : c.size ≤ lim.maxBytes := Int64.not_lt.mp hmax
  cases hopens : windows.opens c.now c.scope.key with
  | true => exact .opened hpos' hmax' hopens
  | false =>
      rw [if_neg (by decide)]
      cases hwindow : windows c.scope.key with
      | none => exact .refused
      | some w =>
          dsimp only
          by_cases hfull : lim.ratePerMin ≤ w.count ∨
              (0 < lim.bytesPerMin ∧ lim.bytesPerMin - c.size < w.bytes)
          · rw [if_pos hfull]
            exact .refused
          · rw [if_neg hfull]
            obtain ⟨hcount, hbytes⟩ := not_or.mp hfull
            exact .counted w hpos' hmax' hopens hwindow (Int64.not_le.mp hcount)
              fun hlimit => Int64.not_lt.mp fun h => hbytes ⟨hlimit, h⟩

/-! ## The invariant -/

/-- The bytes that are left for a request are computed without overflow. -/
theorem toInt_bytesLeft {limit size : Int64} (hlimit : 0 < limit) (hsize : 0 < size) :
    (limit - size).toInt = limit.toInt - size.toInt := by
  have h0 : (0 : Int64).toInt = 0 := rfl
  rw [Int64.lt_iff_toInt_lt, h0] at hlimit hsize
  have hlimitLt := limit.toInt_lt
  have hsizeLt := size.toInt_lt
  rw [Int64.toInt_sub]
  refine Int.bmod_eq_of_le ?_ ?_
  · norm_num
    omega
  · norm_num
    omega

/-- A sum that stays below a limit is computed without overflow. -/
theorem toInt_add_of_le {a b limit : Int64} (ha : 0 ≤ a.toInt) (hb : 0 ≤ b.toInt)
    (h : a.toInt + b.toInt ≤ limit.toInt) : (a + b).toInt = a.toInt + b.toInt := by
  have hlimitLt := limit.toInt_lt
  rw [Int64.toInt_add]
  refine Int.bmod_eq_of_le ?_ ?_
  · norm_num
    omega
  · norm_num
    omega

/-- A window holds what was granted in it. Only a window with one grant may be over the limit. -/
structure RateWindow.Accounts (lim : Limits) (w : RateWindow) (grants : List (Scope × Int64)) :
    Prop where
  count : w.count.toInt = grants.length
  bytes : w.bytes.toInt = (grants.map fun g => g.2.toInt).sum
  rate : (grants.length : Int) ≤ lim.ratePerMin.toInt
  sizes : ∀ g ∈ grants, 0 < g.2.toInt
  within : w.bytes.toInt ≤ lim.bytesPerMin.toInt ∨ ∃ g, grants = [g]

theorem RateWindow.accounts_opened {lim : Limits} (hlim : lim.Positive) {scope : Scope}
    {size : Int64} (hsize : 0 < size) (now : Int) :
    RateWindow.Accounts lim ⟨now, 1, size⟩ [(scope, size)] where
  count := rfl
  bytes := by simp
  rate := by
    have hrate := hlim.ratePerMin
    rw [Int64.lt_iff_toInt_lt] at hrate
    exact hrate
  sizes := by
    intro g hg
    obtain rfl := List.mem_singleton.mp hg
    exact Int64.lt_iff_toInt_lt.mp hsize
  within := Or.inr ⟨_, rfl⟩

theorem RateWindow.Accounts.bytes_nonneg {lim : Limits} {w : RateWindow}
    {grants : List (Scope × Int64)} (h : w.Accounts lim grants) : 0 ≤ w.bytes.toInt := by
  rw [h.bytes]
  refine List.sum_nonneg fun x hx => ?_
  obtain ⟨g, hg, rfl⟩ := List.mem_map.mp hx
  exact Int.le_of_lt (h.sizes g hg)

/-- A request that is counted keeps the accounts: it leaves the window below the limit. -/
theorem RateWindow.Accounts.counted {lim : Limits} (hlim : lim.Positive) {w : RateWindow}
    {grants : List (Scope × Int64)} (h : w.Accounts lim grants) {scope : Scope} {size : Int64}
    (hsize : 0 < size) (hcount : w.count < lim.ratePerMin)
    (hbytes : w.bytes ≤ lim.bytesPerMin - size) :
    RateWindow.Accounts lim ⟨w.start, w.count + 1, w.bytes + size⟩ (grants ++ [(scope, size)]) := by
  have h0 : (0 : Int64).toInt = 0 := rfl
  have h1 : (1 : Int64).toInt = 1 := rfl
  have hpos : 0 < size.toInt := Int64.lt_iff_toInt_lt.mp hsize
  have hrate := Int64.lt_iff_toInt_lt.mp hcount
  rw [Int64.le_iff_toInt_le, toInt_bytesLeft hlim.bytesPerMin hsize] at hbytes
  have hcountNonneg : 0 ≤ w.count.toInt := by
    rw [h.count]
    exact Int.natCast_nonneg _
  have hbytesNonneg := h.bytes_nonneg
  have hcountAdd : (w.count + 1).toInt = w.count.toInt + 1 := by
    have hadd := @toInt_add_of_le w.count 1 lim.ratePerMin hcountNonneg (by decide)
      (by rw [h1]; omega)
    rw [hadd, h1]
  have hbytesAdd : (w.bytes + size).toInt = w.bytes.toInt + size.toInt :=
    @toInt_add_of_le w.bytes size lim.bytesPerMin hbytesNonneg (by omega) (by omega)
  refine ⟨?_, ?_, ?_, ?_, Or.inl ?_⟩
  · show (w.count + 1).toInt = _
    rw [hcountAdd, h.count, List.length_append, List.length_singleton]
    push_cast
    ring
  · show (w.bytes + size).toInt = _
    rw [hbytesAdd, h.bytes, List.map_append, List.sum_append]
    simp
  · rw [List.length_append, List.length_singleton]
    have hlength := h.count
    push_cast
    omega
  · intro g hg
    rcases List.mem_append.mp hg with hold | hnew
    · exact h.sizes g hold
    · obtain rfl := List.mem_singleton.mp hnew
      exact hpos
  · show (w.bytes + size).toInt ≤ _
    rw [hbytesAdd]
    omega

namespace Ledger

variable {lim : Limits} {l : Ledger}

/-- Every window holds what was granted in it, to the scopes of its key. -/
structure Sound (lim : Limits) (l : Ledger) : Prop where
  keys : ∀ key, ∀ g ∈ l.grants key, g.1.key = key
  closed : ∀ key, l.windows key = none → l.grants key = []
  accounts : ∀ key w, l.windows key = some w → w.Accounts lim (l.grants key)

theorem sound_initial : initial.Sound lim where
  keys := fun _ _ h => by cases h
  closed := fun _ _ => rfl
  accounts := fun _ _ h => by cases h

/-- A granted request changes the window of its key alone. -/
theorem Sound.update (h : l.Sound lim) {key : Bytes} {w : RateWindow}
    {grants : List (Scope × Int64)} (hkeys : ∀ g ∈ grants, g.1.key = key)
    (hw : w.Accounts lim grants) :
    Sound lim ⟨Function.update l.windows key (some w), Function.update l.grants key grants⟩ := by
  refine ⟨fun other => ?_, fun other => ?_, fun other v => ?_⟩
  · show ∀ g ∈ Function.update l.grants key grants other, _
    by_cases heq : other = key
    · rw [heq, Function.update_self]
      exact hkeys
    · rw [Function.update_of_ne heq]
      exact h.keys other
  · show Function.update l.windows key (some w) other = none →
      Function.update l.grants key grants other = []
    by_cases heq : other = key
    · rw [heq, Function.update_self]
      intro hnone
      cases hnone
    · rw [Function.update_of_ne heq, Function.update_of_ne heq]
      exact h.closed other
  · show Function.update l.windows key (some w) other = some v →
      v.Accounts lim (Function.update l.grants key grants other)
    by_cases heq : other = key
    · rw [heq, Function.update_self, Function.update_self]
      intro hsome
      obtain rfl := Option.some.inj hsome
      exact hw
    · rw [Function.update_of_ne heq, Function.update_of_ne heq]
      exact h.accounts other v

/-- A call keeps the windows sound. -/
theorem Sound.step (hlim : lim.Positive) (h : l.Sound lim) (c : AllowCall) :
    (l.step lim c).Sound lim := by
  have hallowed := lim.allow_allowed l.windows c
  unfold Ledger.step
  generalize lim.allow l.windows c.now c.scope c.size = answer at hallowed
  cases hallowed with
  | refused => exact h
  | opened hsize hmax hopens =>
      rw [hopens]
      exact h.update (by simp) (RateWindow.accounts_opened hlim hsize c.now)
  | counted w hsize hmax hopens hwindow hcount hbytes =>
      rw [hopens]
      refine h.update (fun g hg => ?_) ((h.accounts c.scope.key w hwindow).counted hlim hsize hcount
        (hbytes hlim.bytesPerMin))
      rcases List.mem_append.mp hg with hold | hnew
      · exact h.keys c.scope.key g hold
      · rw [List.mem_singleton.mp hnew]

theorem sound_after (hlim : lim.Positive) (calls : List AllowCall) : (after lim calls).Sound lim := by
  unfold after
  induction calls using List.reverseRecOn with
  | nil => exact sound_initial
  | append_singleton calls c ih =>
      rw [List.foldl_append]
      exact ih.step hlim c

/-- What a scope was granted is part of what was granted in its window. -/
theorem grantedTo_sublist (l : Ledger) (scope : Scope) :
    (l.grantedTo scope).Sublist ((l.grants scope.key).map fun g => g.2.toInt) :=
  List.filter_sublist.map _

theorem Sound.countBounded (h : l.Sound lim) (hlim : lim.Positive) : l.CountBounded lim := by
  intro scope
  have hle := (l.grantedTo_sublist scope).length_le
  rw [List.length_map] at hle
  cases hwindow : l.windows scope.key with
  | none =>
      have hrate := Int64.lt_iff_toInt_lt.mp hlim.ratePerMin
      have h0 : (0 : Int64).toInt = 0 := rfl
      rw [h.closed scope.key hwindow, List.length_nil] at hle
      omega
  | some w =>
      have hrate := (h.accounts scope.key w hwindow).rate
      omega

/-- The bytes of a window are bounded exactly when each of its grants is. -/
theorem Sound.bytesBounded_iff (h : l.Sound lim) (hlim : lim.Positive) :
    l.BytesBounded lim ↔ ∀ key, ∀ g ∈ l.grants key, g.2 ≤ lim.bytesPerMin := by
  have hsizes : ∀ key, ∀ g ∈ l.grants key, 0 < g.2.toInt := by
    intro key g hg
    cases hwindow : l.windows key with
    | none =>
        rw [h.closed key hwindow] at hg
        cases hg
    | some w => exact (h.accounts key w hwindow).sizes g hg
  constructor
  · intro hbounded key g hg
    obtain rfl := h.keys key g hg
    -- the grant alone is part of what its scope was granted
    have hmem : g.2.toInt ∈ l.grantedTo g.1 :=
      List.mem_map_of_mem (List.mem_filter.mpr ⟨hg, decide_eq_true rfl⟩)
    have hnonneg : ∀ x ∈ l.grantedTo g.1, 0 ≤ x := by
      intro x hx
      obtain ⟨other, hother, rfl⟩ := List.mem_map.mp hx
      exact Int.le_of_lt (hsizes _ other (List.mem_filter.mp hother).1)
    have hle := List.single_le_sum hnonneg _ hmem
    have hsum := hbounded g.1
    rw [Int64.le_iff_toInt_le]
    omega
  · intro hgrants scope
    have hnonneg : ∀ x ∈ (l.grants scope.key).map fun g => g.2.toInt, 0 ≤ x := by
      intro x hx
      obtain ⟨g, hg, rfl⟩ := List.mem_map.mp hx
      exact Int.le_of_lt (hsizes _ g hg)
    have hle := (l.grantedTo_sublist scope).sum_le_sum hnonneg
    cases hwindow : l.windows scope.key with
    | none =>
        have hlimit := Int64.lt_iff_toInt_lt.mp hlim.bytesPerMin
        have h0 : (0 : Int64).toInt = 0 := rfl
        rw [h.closed scope.key hwindow, List.map_nil, List.sum_nil] at hle
        omega
    | some w =>
        have haccounts := h.accounts scope.key w hwindow
        rw [← haccounts.bytes] at hle
        rcases haccounts.within with hwithin | ⟨g, hg⟩
        · omega
        · have hsize := hgrants scope.key g (by rw [hg]; exact List.mem_singleton_self g)
          rw [Int64.le_iff_toInt_le] at hsize
          rw [haccounts.bytes, hg, List.map_singleton, List.sum_singleton] at hle
          omega

/-- A request that opens a window is granted, unless its size is out of range. -/
theorem grants_step_opened {c : AllowCall} (hsize : 0 < c.size) (hmax : c.size ≤ lim.maxBytes)
    (hopens : l.windows.opens c.now c.scope.key = true) :
    (l.step lim c).grants c.scope.key = [(c.scope, c.size)] := by
  have hrange : ¬ (c.size ≤ 0 ∨ lim.maxBytes < c.size) :=
    not_or.mpr ⟨Int64.not_le.mpr hsize, Int64.not_lt.mpr hmax⟩
  simp [step, Limits.allow, hrange, hopens]

/-- A call keeps the bytes of every window bounded, unless it opens one with too many. -/
theorem Sound.bytesBounded_step (hlim : lim.Positive) (h : l.Sound lim) {c : AllowCall}
    (hopening : l.windows.opens c.now c.scope.key = true → c.size ≤ lim.maxBytes →
      c.size ≤ lim.bytesPerMin)
    (hbounded : l.BytesBounded lim) : (l.step lim c).BytesBounded lim := by
  rw [(h.step hlim c).bytesBounded_iff hlim]
  rw [h.bytesBounded_iff hlim] at hbounded
  have hupdate : ∀ grants, (∀ g ∈ grants, g.2 ≤ lim.bytesPerMin) → ∀ key,
      ∀ g ∈ Function.update l.grants c.scope.key grants key, g.2 ≤ lim.bytesPerMin := by
    intro grants hgrants key
    by_cases heq : key = c.scope.key
    · rw [heq, Function.update_self]
      exact hgrants
    · rw [Function.update_of_ne heq]
      exact hbounded key
  have hallowed := lim.allow_allowed l.windows c
  unfold Ledger.step
  generalize lim.allow l.windows c.now c.scope c.size = answer at hallowed
  cases hallowed with
  | refused => exact hbounded
  | opened hsize hmax hopens =>
      rw [hopens]
      exact hupdate _ (by simpa using hopening hopens hmax)
  | counted w hsize hmax hopens hwindow hcount hbytes =>
      rw [hopens]
      refine hupdate _ (List.forall_mem_append.mpr ⟨hbounded c.scope.key, ?_⟩)
      have hleft := hbytes hlim.bytesPerMin
      have hnonneg := (h.accounts c.scope.key w hwindow).bytes_nonneg
      rw [Int64.le_iff_toInt_le, toInt_bytesLeft hlim.bytesPerMin hsize] at hleft
      rw [List.forall_mem_singleton, Int64.le_iff_toInt_le]
      show c.size.toInt ≤ lim.bytesPerMin.toInt
      omega

/-- The windows of a run are within the budget exactly when the requests that open them are. -/
theorem bytesBounded_run_iff (hlim : lim.Positive) (calls : List AllowCall) :
    (∀ earlier, earlier <+: calls → (after lim earlier).BytesBounded lim) ↔
      ∀ earlier c, earlier ++ [c] <+: calls →
        (after lim earlier).windows.opens c.now c.scope.key = true → c.size ≤ lim.maxBytes →
        c.size ≤ lim.bytesPerMin := by
  have hafter : ∀ earlier c, after lim (earlier ++ [c]) = (after lim earlier).step lim c := by
    intro earlier c
    rw [after, List.foldl_append]
    rfl
  constructor
  · intro h earlier c hearlier hopens hmax
    by_cases hsize : 0 < c.size
    · have hgrants := ((sound_after hlim _).bytesBounded_iff hlim).mp (h _ hearlier) c.scope.key
      rw [hafter, grants_step_opened hsize hmax hopens] at hgrants
      exact hgrants _ (List.mem_singleton_self _)
    · exact Int64.le_trans (Int64.not_lt.mp hsize) (Int64.le_of_lt hlim.bytesPerMin)
  · intro h earlier
    induction earlier using List.reverseRecOn with
    | nil =>
        intro _ scope
        exact Int.le_of_lt (Int64.lt_iff_toInt_lt.mp hlim.bytesPerMin)
    | append_singleton earlier c ih =>
        intro hearlier
        rw [hafter]
        exact (sound_after hlim earlier).bytesBounded_step hlim (h earlier c hearlier)
          (ih ((List.prefix_append _ _).trans hearlier))

end Ledger

/-- After any calls the counters are exact and no scope has more than `ratePerMin` requests in a
window. It has at most `bytesPerMin` bytes in a window exactly when no request of the window is larger
than that. Throughout a run this holds exactly when no request larger than that opens a window, and
throughout all runs exactly when `maxBytes ≤ bytesPerMin`. -/
theorem granted_within_limits {lim : Limits} (hlim : lim.Positive) (calls : List AllowCall) :
    (Ledger.after lim calls).Exact ∧
    (∀ size, 0 < size → (lim.bytesPerMin - size).toInt = lim.bytesPerMin.toInt - size.toInt) ∧
    (Ledger.after lim calls).CountBounded lim ∧
    ((Ledger.after lim calls).BytesBounded lim ↔
      ∀ key, ∀ g ∈ (Ledger.after lim calls).grants key, g.2 ≤ lim.bytesPerMin) ∧
    ((∀ earlier, earlier <+: calls → (Ledger.after lim earlier).BytesBounded lim) ↔
      ∀ earlier c, earlier ++ [c] <+: calls →
        (Ledger.after lim earlier).windows.opens c.now c.scope.key = true → c.size ≤ lim.maxBytes →
        c.size ≤ lim.bytesPerMin) ∧
    ((∀ others, (Ledger.after lim others).BytesBounded lim) ↔ lim.maxBytes ≤ lim.bytesPerMin) := by
  have hsound := Ledger.sound_after hlim calls
  refine ⟨fun key w hwindow => ?_, fun size => toInt_bytesLeft hlim.bytesPerMin,
    hsound.countBounded hlim, hsound.bytesBounded_iff hlim, Ledger.bytesBounded_run_iff hlim calls,
    fun h => ?_, fun hmax others => ?_⟩
  · have haccounts := hsound.accounts key w hwindow
    exact ⟨haccounts.count, haccounts.bytes⟩
  · -- a request of `maxBytes` opens a window
    have hrun := (Ledger.bytesBounded_run_iff hlim [⟨0, ⟨[], [], []⟩, lim.maxBytes⟩]).mp
      fun earlier _ => h earlier
    exact hrun [] _ (List.prefix_refl _) rfl (Int64.le_refl _)
  · refine (Ledger.bytesBounded_run_iff hlim others).mpr (fun earlier c _ _ hsize => ?_) others
      (List.prefix_refl _)
    exact Int64.le_trans hsize hmax

namespace Sample

/-- A scope. -/
def scope : Scope := ⟨[0x73], [0x6f], [0x72]⟩

/-- Limits with `maxBytes` below the budget of a minute. -/
def limits : Limits := ⟨6, 2, 10⟩

/-- Two requests of a minute are granted, a third and one that does not fit are not. -/
theorem granted_of_four :
    (Ledger.after limits [⟨0, scope, 6⟩, ⟨1, scope, 5⟩, ⟨2, scope, 4⟩, ⟨3, scope, 1⟩]).grantedTo scope =
      [6, 4] ∧
    (Ledger.after limits
      [⟨0, scope, 6⟩, ⟨1, scope, 5⟩, ⟨2, scope, 4⟩, ⟨3, scope, 1⟩]).BytesBounded limits := by
  have hpositive : limits.Positive := ⟨by decide, by decide, by decide⟩
  have hmax : limits.maxBytes ≤ limits.bytesPerMin := by decide
  exact ⟨by decide +kernel, (granted_within_limits hpositive []).2.2.2.2.2.mpr hmax _⟩

/-- The request that opens a window may be larger than the budget of the minute. -/
theorem opening_request_exceeds_budget :
    (Ledger.after ⟨100, 2, 10⟩ [⟨0, scope, 60⟩]).grantedTo scope = [60] ∧
      ¬ (Ledger.after ⟨100, 2, 10⟩ [⟨0, scope, 60⟩]).BytesBounded ⟨100, 2, 10⟩ := by
  have hgranted : (Ledger.after ⟨100, 2, 10⟩ [⟨0, scope, 60⟩]).grantedTo scope = [60] := by
    decide +kernel
  refine ⟨hgranted, fun hbounded => ?_⟩
  have hsum := hbounded scope
  rw [hgranted] at hsum
  revert hsum
  decide

end Sample

end Igit.Replication
