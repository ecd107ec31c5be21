import Igit.Library.Lineage
import Igit.Migration.Planner

/-!
# Fork lineages of a snapshot

`validateSnapshot` searches the forks for cycles with `visitFork` and `snapshotModuleRecords` counts
the ancestors of a repository with `forkDepth`, both on the texts of the snapshot. The search accepts
exactly the snapshots in which every lineage ends (`checkLineage_eq_ok`), in whatever order it goes
through the repositories (`foldlM_visitFork_eq_ok`), and then the count is the length of the lineage,
with the map of counts that `forkDepth` fills (`memoDepth_spec`) and without it (`forkDepth_eq`).
-/

namespace Igit.Migration

open Fallible

variable {repos : List SnapshotRepository} {id p : Text Bytes32} {fuel n : Nat}

/-- The fork parent of an ID, if it has one. -/
def forkOf (repos : List SnapshotRepository) (id : Text Bytes32) : Option (Text Bytes32) :=
  if forkParent repos id = .empty then none else some (forkParent repos id)

theorem forkOf_eq_none : forkOf repos id = none ↔ forkParent repos id = .empty := by
  unfold forkOf
  split
  · next h => simp [h]
  · next h => simp [h]

theorem forkOf_eq_some : forkOf repos id = some p ↔ forkParent repos id ≠ .empty ∧
    forkParent repos id = p := by
  unfold forkOf
  split
  · next h => simp [h]
  · next h => simp [h]

/-! ## The search for cycles -/

/-- One call of `visitFork`. -/
theorem visitFork_eq_ok {visiting visited out : List (Text Bytes32)} :
    visitFork repos fuel visiting visited id = .ok out ↔
      id ∉ visiting ∧ ((id ∈ visited ∧ out = visited) ∨
        (id ∉ visited ∧ forkOf repos id = none ∧ out = id :: visited) ∨
        (id ∉ visited ∧ ∃ p, forkOf repos id = some p ∧ ∃ less, fuel = less + 1 ∧ ∃ more,
          visitFork repos less (id :: visiting) visited p = .ok more ∧ out = id :: more)) := by
  rw [visitFork.eq_def]
  dsimp only
  by_cases hvisiting : id ∈ visiting
  · rw [if_pos hvisiting]
    exact iff_of_false (fun h => by cases h) fun h => h.1 hvisiting
  rw [if_neg hvisiting]
  by_cases hvisited : id ∈ visited
  · rw [if_pos hvisited, pure_eq_ok]
    simp [hvisiting, hvisited, eq_comm]
  rw [if_neg hvisited]
  cases hparent : forkOf repos id with
  | none =>
      rw [if_pos (forkOf_eq_none.mp hparent), pure_eq_ok]
      simp [hvisiting, hvisited, eq_comm]
  | some p =>
      obtain ⟨hne, rfl⟩ := forkOf_eq_some.mp hparent
      rw [if_neg hne]
      cases fuel with
      | zero => exact iff_of_false (fun h => by cases h) (by simp [hvisited])
      | succ fuel =>
          dsimp only
          rw [bind_eq_ok]
          constructor
          · intro h
            obtain ⟨more, hmore, hout⟩ := h
            exact ⟨hvisiting, Or.inr (Or.inr ⟨hvisited, _, rfl, fuel, rfl, more, hmore,
              (pure_eq_ok.mp hout).symm⟩)⟩
          · intro h
            obtain ⟨-, hcase⟩ := h
            rcases hcase with ⟨hold, -⟩ | ⟨-, hroot, -⟩ | ⟨-, p, hp, less, hless, more, hmore, hout⟩
            · exact absurd hold hvisited
            · cases hroot
            · cases hp
              cases hless
              exact ⟨more, hmore, pure_eq_ok.mpr hout.symm⟩

/-- The search visits only what has an end. -/
theorem visitFork_ends {visiting visited out : List (Text Bytes32)}
    (h : visitFork repos fuel visiting visited id = .ok out)
    (hvisited : ∀ text ∈ visited, ∃ n, Depth (forkOf repos) text n) :
    (∀ text ∈ out, ∃ n, Depth (forkOf repos) text n) ∧ ∃ n, Depth (forkOf repos) id n := by
  induction fuel generalizing visiting id out with
  | zero =>
      obtain ⟨-, hcase⟩ := visitFork_eq_ok.mp h
      rcases hcase with ⟨hold, rfl⟩ | ⟨-, hroot, rfl⟩ | ⟨-, p, -, less, hless, -⟩
      · exact ⟨hvisited, hvisited _ hold⟩
      · have hend : ∃ n, Depth (forkOf repos) id n := ⟨0, .root hroot⟩
        exact ⟨List.forall_mem_cons.mpr ⟨hend, hvisited⟩, hend⟩
      · omega
  | succ fuel ih =>
      obtain ⟨-, hcase⟩ := visitFork_eq_ok.mp h
      rcases hcase with ⟨hold, rfl⟩ | ⟨-, hroot, rfl⟩ | ⟨-, p, hparent, less, hless, more, hmore, rfl⟩
      · exact ⟨hvisited, hvisited _ hold⟩
      · have hend : ∃ n, Depth (forkOf repos) id n := ⟨0, .root hroot⟩
        exact ⟨List.forall_mem_cons.mpr ⟨hend, hvisited⟩, hend⟩
      · obtain rfl := Nat.succ.inj hless
        obtain ⟨hall, n, hdepth⟩ := ih hmore
        have hend : ∃ n, Depth (forkOf repos) id n := ⟨n + 1, .child hparent hdepth⟩
        exact ⟨List.forall_mem_cons.mpr ⟨hend, hall⟩, hend⟩

/-- The search ends where a lineage does: it goes up the lineage, and what it is visiting is deeper. -/
theorem visitFork_ok {visiting visited : List (Text Bytes32)} (hdepth : Depth (forkOf repos) id n)
    (hfuel : n ≤ fuel)
    (hvisiting : ∀ text ∈ visiting, ∃ m, n < m ∧ Depth (forkOf repos) text m) :
    ∃ out, visitFork repos fuel visiting visited id = .ok out := by
  induction n generalizing fuel visiting id with
  | zero =>
      have hnew : id ∉ visiting := by
        intro hin
        obtain ⟨m, hlt, hother⟩ := hvisiting id hin
        have hsame := hdepth.unique hother
        omega
      by_cases hold : id ∈ visited
      · exact ⟨visited, visitFork_eq_ok.mpr ⟨hnew, Or.inl ⟨hold, rfl⟩⟩⟩
      cases hdepth with
      | root hroot => exact ⟨_, visitFork_eq_ok.mpr ⟨hnew, Or.inr (Or.inl ⟨hold, hroot, rfl⟩)⟩⟩
  | succ n ih =>
      have hnew : id ∉ visiting := by
        intro hin
        obtain ⟨m, hlt, hother⟩ := hvisiting id hin
        have hsame := hdepth.unique hother
        omega
      by_cases hold : id ∈ visited
      · exact ⟨visited, visitFork_eq_ok.mpr ⟨hnew, Or.inl ⟨hold, rfl⟩⟩⟩
      have hself := hdepth
      cases hdepth with
      | @child _ p _ hparent hdepth =>
          obtain ⟨less, rfl⟩ : ∃ less, fuel = less + 1 := ⟨fuel - 1, by omega⟩
          have hdeeper : ∀ text ∈ id :: visiting, ∃ m, n < m ∧ Depth (forkOf repos) text m := by
            intro text htext
            rcases List.mem_cons.mp htext with rfl | hin
            · exact ⟨n + 1, Nat.lt_succ_self n, hself⟩
            · obtain ⟨m, hlt, hother⟩ := hvisiting text hin
              exact ⟨m, by omega, hother⟩
          obtain ⟨more, hmore⟩ := ih hdepth (Nat.le_of_succ_le_succ hfuel) hdeeper
          exact ⟨_, visitFork_eq_ok.mpr
            ⟨hnew, Or.inr (Or.inr ⟨hold, p, hparent, less, rfl, more, hmore, rfl⟩)⟩⟩

/-- Going through IDs visits each of them, in any order. -/
theorem foldlM_visitFork_ends {ids visited out : List (Text Bytes32)}
    (h : ids.foldlM (visitFork repos fuel []) visited = .ok out)
    (hvisited : ∀ text ∈ visited, ∃ n, Depth (forkOf repos) text n) :
    ∀ id ∈ ids, ∃ n, Depth (forkOf repos) id n := by
  induction ids generalizing visited with
  | nil => simp
  | cons first rest ih =>
      rw [List.foldlM_cons] at h
      obtain ⟨next, hnext, hrest⟩ := bind_eq_ok.mp h
      obtain ⟨hall, hend⟩ := visitFork_ends hnext hvisited
      exact List.forall_mem_cons.mpr ⟨hend, ih hrest hall⟩

theorem foldlM_visitFork_ok {ids visited : List (Text Bytes32)}
    (h : ∀ id ∈ ids, ∃ n ≤ fuel, Depth (forkOf repos) id n) :
    ∃ out, ids.foldlM (visitFork repos fuel []) visited = .ok out := by
  induction ids generalizing visited with
  | nil => exact ⟨visited, rfl⟩
  | cons first rest ih =>
      obtain ⟨⟨n, hfuel, hdepth⟩, hrest⟩ := List.forall_mem_cons.mp h
      obtain ⟨next, hnext⟩ := @visitFork_ok repos first fuel n [] visited hdepth hfuel (by simp)
      obtain ⟨out, hout⟩ := @ih next hrest
      refine ⟨out, ?_⟩
      rw [List.foldlM_cons]
      exact bind_eq_ok.mpr ⟨next, hnext, hout⟩

/-! ## The forks of a snapshot -/

/-- Distinct IDs, and fork parents that are there. -/
structure ForksKnown (repos : List SnapshotRepository) : Prop where
  ids : (repos.map SnapshotRepository.id).Nodup
  parents : ∀ r ∈ repos, r.forkedFrom ≠ .empty → r.forkedFrom ∈ repos.map SnapshotRepository.id

/-- With distinct IDs a repository is found by its ID. -/
theorem ForksKnown.forkParent_eq (h : ForksKnown repos) {r : SnapshotRepository} (hr : r ∈ repos) :
    forkParent repos r.id = r.forkedFrom := by
  unfold forkParent
  rw [(find?_key_eq_some h.ids).mpr ⟨hr, rfl⟩]

theorem ForksKnown.mem_of_forkOf (h : ForksKnown repos) :
    ∀ id ∈ repos.map SnapshotRepository.id, ∀ p, forkOf repos id = some p →
      p ∈ repos.map SnapshotRepository.id := by
  intro id hid p hp
  obtain ⟨r, hr, rfl⟩ := List.mem_map.mp hid
  obtain ⟨hne, rfl⟩ := forkOf_eq_some.mp hp
  rw [h.forkParent_eq hr] at hne ⊢
  exact h.parents r hr hne

/-- A lineage that ends is shorter than the list of repositories. -/
theorem ForksKnown.depth_lt (h : ForksKnown repos) (hid : id ∈ repos.map SnapshotRepository.id)
    (hdepth : Depth (forkOf repos) id n) : n < repos.length := by
  have hlt := hdepth.lt_length hid h.mem_of_forkOf
  rw [List.length_map] at hlt
  exact hlt

/-- The search succeeds when every lineage ends, in whatever order it goes through the IDs. -/
theorem ForksKnown.foldlM_visitFork_eq_ok (h : ForksKnown repos) {ids : List (Text Bytes32)}
    (hids : ids.Perm (repos.map SnapshotRepository.id)) :
    (∃ out, ids.foldlM (visitFork repos repos.length []) [] = .ok out) ↔
      ∀ r ∈ repos, ∃ n, Depth (forkOf repos) r.id n := by
  constructor
  · intro hsearch r hr
    obtain ⟨out, hout⟩ := hsearch
    exact foldlM_visitFork_ends hout (by simp) r.id (hids.mem_iff.mpr (List.mem_map_of_mem hr))
  · intro hends
    refine foldlM_visitFork_ok fun id hid => ?_
    have hin := hids.mem_iff.mp hid
    obtain ⟨r, hr, rfl⟩ := List.mem_map.mp hin
    obtain ⟨n, hdepth⟩ := hends r hr
    have hlt := h.depth_lt hin hdepth
    exact ⟨n, by omega, hdepth⟩

theorem ForksKnown.checkLineage_eq_ok (h : ForksKnown repos) {u : Unit} :
    checkLineage repos = .ok u ↔ ∀ r ∈ repos, ∃ n, Depth (forkOf repos) r.id n := by
  rw [← h.foldlM_visitFork_eq_ok (List.Perm.refl _)]
  unfold checkLineage
  rw [bind_eq_ok]
  exact ⟨fun ⟨out, hout, _⟩ => ⟨out, hout⟩, fun ⟨out, hout⟩ => ⟨out, hout, rfl⟩⟩

/-! ## The depth of a fork -/

/-- `forkDepth` without its map counts the ancestors. -/
theorem forkDepth_eq (hdepth : Depth (forkOf repos) id n) (hfuel : n ≤ fuel) :
    forkDepth repos fuel id = n := by
  induction fuel generalizing id n with
  | zero =>
      obtain rfl := Nat.le_zero.mp hfuel
      rfl
  | succ fuel ih =>
      unfold forkDepth
      cases hdepth with
      | root hroot => rw [if_pos (forkOf_eq_none.mp hroot)]
      | @child _ p n hparent hdepth =>
          obtain ⟨hne, rfl⟩ := forkOf_eq_some.mp hparent
          rw [if_neg hne]
          exact congrArg (· + 1) (ih hdepth (Nat.le_of_succ_le_succ hfuel))

/-- The map `depth`, from the IDs that were counted. -/
abbrev DepthMap := Text Bytes32 → Option Nat

/-- `forkDepth` with its map: a count that is there is returned, any other is added. -/
def memoDepth (repos : List SnapshotRepository) : Nat → DepthMap → Text Bytes32 → Nat × DepthMap
  | fuel, depth, id =>
      match depth id with
      | some value => (value, depth)
      | none =>
          if forkParent repos id = .empty then (0, Function.update depth id (some 0))
          else match fuel with
            | 0 => (0, depth)
            | fuel + 1 =>
                let below := memoDepth repos fuel depth (forkParent repos id)
                (below.1 + 1, Function.update below.2 id (some (below.1 + 1)))

/-- The map after the loop over the repositories. -/
def depthMap (repos : List SnapshotRepository) : DepthMap :=
  repos.foldl (fun depth r => (memoDepth repos repos.length depth r.id).2) fun _ => none

/-- The counts of a map are those of the lineages. -/
def DepthMap.Sound (repos : List SnapshotRepository) (depth : DepthMap) : Prop :=
  ∀ id n, depth id = some n → Depth (forkOf repos) id n

theorem DepthMap.Sound.update {depth : DepthMap} (h : depth.Sound repos)
    (hdepth : Depth (forkOf repos) id n) :
    DepthMap.Sound repos (Function.update depth id (some n)) := by
  intro other m hm
  by_cases heq : other = id
  · subst heq
    rw [Function.update_self] at hm
    obtain rfl := Option.some.inj hm
    exact hdepth
  · rw [Function.update_of_ne heq] at hm
    exact h other m hm

/-- What was counted is not what is counted next. -/
theorem ne_of_count {depth : DepthMap} {other : Text Bytes32} (hnew : depth id = none)
    (hold : depth other = some n) : other ≠ id := by
  intro h
  rw [h, hnew] at hold
  cases hold

/-- A call of `forkDepth` counts the ancestors, keeps what the map holds and adds the count. -/
theorem memoDepth_spec {depth : DepthMap} (hsound : depth.Sound repos)
    (hdepth : Depth (forkOf repos) id n) (hfuel : n ≤ fuel) :
    (memoDepth repos fuel depth id).1 = n ∧ (memoDepth repos fuel depth id).2.Sound repos ∧
      (memoDepth repos fuel depth id).2 id = some n ∧
      ∀ other m, depth other = some m → (memoDepth repos fuel depth id).2 other = some m := by
  induction n generalizing id fuel with
  | zero =>
      rw [memoDepth.eq_def]
      dsimp only
      cases hknown : depth id with
      | some value =>
          obtain rfl := hdepth.unique (hsound id value hknown)
          exact ⟨rfl, hsound, hknown, fun other m hm => hm⟩
      | none =>
          have hself := hdepth
          cases hdepth with
          | root hroot =>
              dsimp only
              rw [if_pos (forkOf_eq_none.mp hroot)]
              refine ⟨rfl, hsound.update hself, Function.update_self .., fun other m hm => ?_⟩
              exact (Function.update_of_ne (ne_of_count hknown hm) _ _).trans hm
  | succ n ih =>
      rw [memoDepth.eq_def]
      dsimp only
      cases hknown : depth id with
      | some value =>
          obtain rfl := hdepth.unique (hsound id value hknown)
          exact ⟨rfl, hsound, hknown, fun other m hm => hm⟩
      | none =>
          have hself := hdepth
          cases hdepth with
          | @child _ p n hparent hdepth =>
              obtain ⟨hfork, rfl⟩ := forkOf_eq_some.mp hparent
              obtain ⟨less, rfl⟩ : ∃ less, fuel = less + 1 := ⟨fuel - 1, by omega⟩
              dsimp only
              rw [if_neg hfork]
              obtain ⟨hcount, hbelow, -, hkept⟩ := ih hdepth (Nat.le_of_succ_le_succ hfuel)
              rw [hcount]
              refine ⟨rfl, hbelow.update hself, Function.update_self .., fun other m hm => ?_⟩
              exact (Function.update_of_ne (ne_of_count hknown hm) _ _).trans (hkept other m hm)

/-- The loop counts every repository it goes through. -/
theorem foldl_memoDepth {visited : List SnapshotRepository} {depth : DepthMap}
    (hsound : depth.Sound repos)
    (hends : ∀ r ∈ visited, ∃ n ≤ fuel, Depth (forkOf repos) r.id n) :
    (∀ id m, depth id = some m →
      visited.foldl (fun depth r => (memoDepth repos fuel depth r.id).2) depth id = some m) ∧
    ∀ r ∈ visited, ∀ n, Depth (forkOf repos) r.id n →
      visited.foldl (fun depth r => (memoDepth repos fuel depth r.id).2) depth r.id = some n := by
  induction visited generalizing depth with
  | nil => exact ⟨fun id m h => h, by simp⟩
  | cons first rest ih =>
      obtain ⟨⟨n, hfuel, hdepth⟩, hrest⟩ := List.forall_mem_cons.mp hends
      obtain ⟨-, hnext, hfirst, hkept⟩ := memoDepth_spec hsound hdepth hfuel
      obtain ⟨hold, hnew⟩ := ih hnext hrest
      refine ⟨fun id m hm => hold id m (hkept id m hm), List.forall_mem_cons.mpr ⟨?_, hnew⟩⟩
      intro m hm
      obtain rfl := hdepth.unique hm
      exact hold first.id n hfirst

/-- The map holds the depth of every repository. -/
theorem ForksKnown.depthMap_eq (h : ForksKnown repos)
    (hends : ∀ r ∈ repos, ∃ n, Depth (forkOf repos) r.id n) {r : SnapshotRepository} (hr : r ∈ repos)
    (hdepth : Depth (forkOf repos) r.id n) : depthMap repos r.id = some n := by
  refine (foldl_memoDepth (fun id m hm => by cases hm) fun other hother => ?_).2 r hr n hdepth
  obtain ⟨m, hm⟩ := hends other hother
  have hlt := h.depth_lt (List.mem_map_of_mem hother) hm
  exact ⟨m, by omega, hm⟩

end Igit.Migration
