import Igit.Archive.Evidence
import Igit.Migration.Planner

/-!
# Deployed code against its template

`validateImmutableReferences` of `cli/internal/suitedeploy/artifact.go` and `compareRuntimeTemplate`
of `cli/internal/suitedeploy/deploy.go`. The second compares deployed code with the compiler's
template, of which the first has checked the immutable references. An index or a slice out of range
is an outcome of its own here. After the check there is none, and the comparison passes exactly the
code that is the template but for one value of 32 bytes at the references of each immutable
(`compareRuntimeTemplate_spec`).
-/

namespace Igit.Operator

open Fallible
open Archive (encodeHex)
open Migration (ascii bytesLess)

/-- Bytes in memory, of which there are fewer than an `int` can count. -/
structure ByteSlice where
  bytes : Bytes
  fits : bytes.length < 2 ^ 63

/-- `ImmutableReference`. -/
structure ImmutableReference where
  start : UInt64
  length : UInt64
  deriving DecidableEq, Repr

/-- `map[string][]ImmutableReference`. -/
abbrev References := HashMap Bytes (List ImmutableReference)

/-- The loops over a map. -/
inductive KeyLoop where
  | validate
  | compare
  deriving DecidableEq, Repr

/-- The ways in which `validateImmutableReferences` fails. -/
inductive ReferenceError where
  | noReferences
  | emptyGroup (key : Bytes)
  | invalid (key : Bytes) (start stop : UInt64) (length : Nat)
  | overlaps (key : Bytes) (index : Nat)
  | outOfRange
  deriving DecidableEq, Repr

/-- The ways in which `compareRuntimeTemplate` fails. -/
inductive TemplateError where
  | lengthMismatch (observed template : Nat)
  | inconsistent (key : Bytes)
  | differs (index : Nat)
  | outOfRange
  deriving DecidableEq, Repr

/-! ## The check of the references -/

/-- One byte of a reference. -/
def occupy (key : Bytes) (occupied : List Bool) (index : Nat) :
    Except ReferenceError (List Bool) := do
  let taken ← demand occupied[index]? .outOfRange
  revertIf (taken = true) (.overlaps key index)
  pure (occupied.set index true)

/-- One reference. The sum is one of machine words. -/
def checkReference (runtime : ByteSlice) (key : Bytes) (occupied : List Bool)
    (reference : ImmutableReference) : Except ReferenceError (List Bool) := do
  let stop := reference.start + reference.length
  let size := UInt64.ofNat runtime.bytes.length
  revertIf (reference.length ≠ 32 ∨ reference.start > size ∨ stop > size)
    (.invalid key reference.start stop runtime.bytes.length)
  (List.range' reference.start.toNat (stop.toNat - reference.start.toNat)).foldlM (occupy key)
    occupied

/-- The references of one immutable. -/
def checkGroup (runtime : ByteSlice) (references : References) (occupied : List Bool)
    (key : Bytes) : Except ReferenceError (List Bool) := do
  let group := references.getD key []
  revertIf (Runes.trimSpace key = [] ∨ group = []) (.emptyGroup key)
  group.foldlM (checkReference runtime key) occupied

/-- `validateImmutableReferences`. -/
def validateImmutableReferences (rt : Runtime KeyLoop) (runtime : ByteSlice)
    (references : References) : Except ReferenceError Unit := do
  revertIf (references.keys = []) .noReferences
  let keys := rt.sort bytesLess (rt.visit .validate references.keys)
  let _ ← keys.foldlM (checkGroup runtime references) (List.replicate runtime.bytes.length false)
  pure ()

/-! ## The comparison -/

/-- `int` of a `uint64`. -/
def goInt (x : UInt64) : Int := x.toBitVec.toInt

/-- `bytes[start:stop]`. What lies beyond the length counts as out of range, whatever the capacity. -/
def sliceOf (bytes : Bytes) (start stop : Int) : Option Bytes :=
  if 0 ≤ start ∧ start ≤ stop ∧ stop ≤ bytes.length then
    some ((bytes.drop start.toNat).take (stop - start).toNat)
  else none

/-- `mutable[index] = true`. -/
def mark (mutable : List Bool) (index : Nat) : Except TemplateError (List Bool) := do
  revertIf (mutable.length ≤ index) .outOfRange
  pure (mutable.set index true)

/-- One reference of an immutable. A value that is empty is `nil`. -/
def takeReference (observed : ByteSlice) (key : Bytes) (state : Bytes × List Bool)
    (reference : ImmutableReference) : Except TemplateError (Bytes × List Bool) := do
  let (expected, mutable) := state
  let start := goInt reference.start
  let stop := goInt (reference.start + reference.length)
  let value ← demand (sliceOf observed.bytes start stop) .outOfRange
  revertIf (expected ≠ [] ∧ expected ≠ value) (.inconsistent key)
  let mutable ← (List.range' start.toNat (stop - start).toNat).foldlM mark mutable
  pure (if expected = [] then value else expected, mutable)

/-- One immutable. -/
def takeGroup (observed : ByteSlice) (references : References)
    (state : List Bool × HashMap Bytes Bytes) (key : Bytes) :
    Except TemplateError (List Bool × HashMap Bytes Bytes) := do
  let (expected, mutable) ← (references.getD key []).foldlM (takeReference observed key)
    ([], state.1)
  pure (mutable, state.2.insert key (ascii "0x" ++ encodeHex expected))

/-- One byte of the template. -/
def compareByte (template observed : ByteSlice) (mutable : List Bool) (index : Nat) :
    Except TemplateError Unit := do
  let changes ← demand mutable[index]? .outOfRange
  if changes = true then pure ()
  else
    let expected ← demand template.bytes[index]? .outOfRange
    let found ← demand observed.bytes[index]? .outOfRange
    revertIf (expected ≠ found) (.differs index)

/-- `compareRuntimeTemplate`. -/
def compareRuntimeTemplate (rt : Runtime KeyLoop) (template observed : ByteSlice)
    (references : References) : Except TemplateError (HashMap Bytes Bytes) := do
  revertIf (observed.bytes.length ≠ template.bytes.length)
    (.lengthMismatch observed.bytes.length template.bytes.length)
  let keys := rt.sort bytesLess (rt.visit .compare references.keys)
  let (mutable, values) ← keys.foldlM (takeGroup observed references)
    (List.replicate template.bytes.length false, ∅)
  (List.range template.bytes.length).forM (compareByte template observed mutable)
  pure values

/-! ## What the comparison is for -/

namespace ImmutableReference

/-- The bytes of a reference. -/
def value (reference : ImmutableReference) (bytes : Bytes) : Bytes :=
  (bytes.drop reference.start.toNat).take reference.length.toNat

/-- An index that a reference covers. -/
def Covers (reference : ImmutableReference) (index : Nat) : Prop :=
  reference.start.toNat ≤ index ∧ index < reference.start.toNat + reference.length.toNat

/-- A reference to 32 bytes of a code. -/
structure Within (reference : ImmutableReference) (size : Nat) : Prop where
  length_eq : reference.length = 32
  stop_le : reference.start.toNat + 32 ≤ size

end ImmutableReference

/-- Code that is the template but for one value of 32 bytes at the references of each immutable. -/
structure MatchesTemplate (template observed : Bytes) (references : References) : Prop where
  length_eq : observed.length = template.length
  outside : ∀ index < template.length,
    (∀ key group, references.lookup key = some group → ∀ r ∈ group, ¬ r.Covers index) →
      observed[index]? = template[index]?
  inside : ∀ key group, references.lookup key = some group →
    ∃ value : Bytes, value.length = 32 ∧ ∀ r ∈ group, r.value observed = value

/-- The values of the immutables, in the form in which they are reported. -/
def Reports (observed : Bytes) (references : References) (values : HashMap Bytes Bytes) : Prop :=
  ∀ key, match references.lookup key with
    | none => values.lookup key = none
    | some group => ∃ value : Bytes, value.length = 32 ∧ (∀ r ∈ group, r.value observed = value) ∧
        values.lookup key = some (ascii "0x" ++ encodeHex value)

/-! ## References that passed the check -/

theorem within_of_checkReference {runtime : ByteSlice} {key : Bytes} {occupied after : List Bool}
    {reference : ImmutableReference}
    (h : checkReference runtime key occupied reference = .ok after) :
    reference.Within runtime.bytes.length := by
  simp only [checkReference, bind_eq_ok, exists_unit, revertIf_eq_ok, not_or, not_not] at h
  obtain ⟨⟨hlength, hstart, hstop⟩, -⟩ := h
  have hfits := runtime.fits
  have hsize : (UInt64.ofNat runtime.bytes.length).toNat = runtime.bytes.length :=
    UInt64.toNat_ofNat_of_lt' (show runtime.bytes.length < 2 ^ 64 by omega)
  rw [gt_iff_lt, UInt64.lt_iff_toNat_lt, hsize] at hstart hstop
  have hword : (32 : UInt64).toNat = 32 := rfl
  rw [hlength, UInt64.toNat_add, hword] at hstop
  refine ⟨hlength, ?_⟩
  omega

/-- The keys that a loop visits are those of the map. -/
theorem mem_visited {rt : Runtime KeyLoop} {loop : KeyLoop} {references : References} {key : Bytes} :
    key ∈ rt.sort bytesLess (rt.visit loop references.keys) ↔
      ∃ group, references.lookup key = some group := by
  rw [((rt.sort_perm _ _).trans (rt.visit_perm _ _)).mem_iff, ← Option.isSome_iff_exists,
    AList.lookup_isSome]
  rfl

theorem getD_of_lookup {references : References} {key : Bytes} {group : List ImmutableReference}
    (h : references.lookup key = some group) : references.getD key [] = group := by
  rw [HashMap.getD, h]
  rfl

/-- Every immutable of a checked map has references, and each of these lies within the code. -/
structure Checked (size : Nat) (references : References) : Prop where
  nonempty : ∀ key group, references.lookup key = some group → group ≠ []
  within : ∀ key group, references.lookup key = some group → ∀ r ∈ group, r.Within size

theorem checked_of_validate {rt : Runtime KeyLoop} {runtime : ByteSlice} {references : References}
    (h : validateImmutableReferences rt runtime references = .ok ()) :
    Checked runtime.bytes.length references := by
  simp only [validateImmutableReferences, bind_eq_ok, exists_unit, revertIf_eq_ok] at h
  obtain ⟨-, occupied, hrun, -⟩ := h
  have hgroup : ∀ key group, references.lookup key = some group →
      group ≠ [] ∧ ∀ r ∈ group, r.Within runtime.bytes.length := by
    intro key group hlookup
    obtain ⟨before, after, hcheck⟩ := foldlM_rounds hrun key (mem_visited.mpr ⟨group, hlookup⟩)
    simp only [checkGroup, bind_eq_ok, exists_unit, revertIf_eq_ok, not_or,
      getD_of_lookup hlookup] at hcheck
    obtain ⟨⟨-, hne⟩, hreferences⟩ := hcheck
    refine ⟨hne, fun r hr => ?_⟩
    obtain ⟨_, _, hreference⟩ := foldlM_rounds hreferences r hr
    exact within_of_checkReference hreference
  exact ⟨fun key group h => (hgroup key group h).1, fun key group h => (hgroup key group h).2⟩

/-! ## Marking the bytes of references -/

/-- The marked bytes are those with a property. -/
structure Marks (mutable : List Bool) (size : Nat) (P : Nat → Prop) : Prop where
  length_eq : mutable.length = size
  marked_iff : ∀ index < size, mutable[index]? = some true ↔ P index

theorem Marks.imp {mutable : List Bool} {size : Nat} {P Q : Nat → Prop} (h : Marks mutable size P)
    (hiff : ∀ index, P index ↔ Q index) : Marks mutable size Q :=
  ⟨h.length_eq, fun index hindex => (h.marked_iff index hindex).trans (hiff index)⟩

theorem Marks.none (size : Nat) : Marks (List.replicate size false) size fun _ => False := by
  refine ⟨List.length_replicate, fun index hindex => ?_⟩
  rw [List.getElem?_replicate, if_pos hindex]
  simp

theorem Marks.set {mutable : List Bool} {size : Nat} {P : Nat → Prop} (h : Marks mutable size P)
    (place : Nat) : Marks (mutable.set place true) size fun index => index = place ∨ P index := by
  refine ⟨by rw [List.length_set, h.length_eq], fun index hindex => ?_⟩
  have hlt : index < mutable.length := by rw [h.length_eq]; exact hindex
  by_cases heq : place = index
  · subst heq
    rw [List.getElem?_set_self hlt]
    simp
  · rw [List.getElem?_set_ne heq, h.marked_iff index hindex]
    simp [Ne.symm heq]

/-- A range within the code is marked. -/
theorem Marks.range {mutable : List Bool} {size : Nat} {P : Nat → Prop} (h : Marks mutable size P)
    {start count : Nat} (hle : start + count ≤ size) :
    ∃ after, (List.range' start count).foldlM mark mutable = .ok after ∧
      Marks after size fun index => P index ∨ start ≤ index ∧ index < start + count := by
  induction count generalizing start mutable P with
  | zero => exact ⟨mutable, rfl, h.imp fun index => ⟨Or.inl, fun hor => hor.resolve_right (by omega)⟩⟩
  | succ count ih =>
      have hround : mark mutable start = .ok (mutable.set start true) := by
        rw [mark, revertIf, if_neg (by rw [h.length_eq]; omega)]
        rfl
      have hnext : start + 1 + count ≤ size := by omega
      obtain ⟨after, hrun, hafter⟩ := ih (h.set start) hnext
      refine ⟨after, ?_, hafter.imp fun index => ?_⟩
      · rw [List.range'_succ, List.foldlM_cons, hround]
        exact hrun
      · constructor
        · rintro ((rfl | hP) | hrange)
          · exact Or.inr (by omega)
          · exact Or.inl hP
          · exact Or.inr (by omega)
        · rintro (hP | hrange)
          · exact Or.inl (Or.inr hP)
          · by_cases heq : index = start
            · exact Or.inl (Or.inl heq)
            · exact Or.inr (by omega)

/-! ## The values of an immutable -/

namespace ImmutableReference

variable {reference : ImmutableReference} {observed : ByteSlice}

/-- The slice of a reference is taken as it stands, without wrapping around. -/
theorem Within.slice (h : reference.Within observed.bytes.length) :
    goInt reference.start = reference.start.toNat ∧
      goInt (reference.start + reference.length) = reference.start.toNat + 32 ∧
      sliceOf observed.bytes (goInt reference.start)
        (goInt (reference.start + reference.length)) = some (reference.value observed.bytes) := by
  obtain ⟨hlength, hstop⟩ := h
  have hfits := observed.fits
  have hword : (32 : UInt64).toNat = 32 := rfl
  have hint : ∀ x : UInt64, x.toNat < 2 ^ 63 → goInt x = x.toNat := by
    intro x hx
    exact BitVec.toInt_eq_toNat_of_lt (x := x.toBitVec) (show 2 * x.toNat < 2 ^ 64 by omega)
  have hsum : (reference.start + reference.length).toNat = reference.start.toNat + 32 := by
    rw [hlength, UInt64.toNat_add, hword]
    omega
  have hstart : goInt reference.start = reference.start.toNat := hint _ (by omega)
  have hend : goInt (reference.start + reference.length) = reference.start.toNat + 32 := by
    rw [hint _ (by omega), hsum]
    rfl
  refine ⟨hstart, hend, ?_⟩
  have hcount : ((reference.start.toNat : Int) + 32 - reference.start.toNat).toNat = 32 := by omega
  rw [hstart, hend, sliceOf, if_pos (by omega), hcount, Int.toNat_natCast, value, hlength, hword]

theorem Within.length_value (h : reference.Within observed.bytes.length) :
    (reference.value observed.bytes).length = 32 := by
  obtain ⟨hlength, hstop⟩ := h
  have hword : (32 : UInt64).toNat = 32 := rfl
  rw [value, hlength, hword, List.length_take, List.length_drop]
  omega

theorem Within.value_ne_nil (h : reference.Within observed.bytes.length) :
    reference.value observed.bytes ≠ [] := by
  intro hnil
  have hlength := h.length_value
  rw [hnil] at hlength
  cases hlength

end ImmutableReference

section Loops

variable {observed : ByteSlice} {mutable : List Bool} {P : Nat → Prop}

/-- One reference: its value is compared with the one before, and its bytes are marked. -/
theorem takeReference_eq {reference : ImmutableReference}
    (hwithin : reference.Within observed.bytes.length) (hmarks : Marks mutable observed.bytes.length P)
    (key expected : Bytes) :
    ∃ after, Marks after observed.bytes.length (fun index => P index ∨ reference.Covers index) ∧
      takeReference observed key (expected, mutable) reference =
        if expected ≠ [] ∧ expected ≠ reference.value observed.bytes then .error (.inconsistent key)
        else .ok (if expected = [] then reference.value observed.bytes else expected, after) := by
  obtain ⟨hstart, hstop, hslice⟩ := hwithin.slice
  obtain ⟨hlength, hle⟩ := hwithin
  obtain ⟨after, hrun, hafter⟩ := hmarks.range hle
  have hcount : ((reference.start.toNat : Int) + 32 - reference.start.toNat).toNat = 32 := by omega
  have hword : reference.length.toNat = 32 := by rw [hlength]; rfl
  refine ⟨after, hafter.imp fun index => ?_, ?_⟩
  · rw [ImmutableReference.Covers, hword]
  · simp only [takeReference, hslice]
    rw [hstart, hstop, hcount, Int.toNat_natCast, hrun]
    show (revertIf (expected ≠ [] ∧ expected ≠ reference.value observed.bytes) _ >>= fun _ => _) = _
    by_cases hdiffers : expected ≠ [] ∧ expected ≠ reference.value observed.bytes
    · rw [if_pos hdiffers, revertIf, if_pos hdiffers]
      rfl
    · rw [if_neg hdiffers, revertIf, if_neg hdiffers]
      rfl

/-- Further references of an immutable whose value is known. -/
theorem takeReferences_eq {group : List ImmutableReference}
    (hwithin : ∀ r ∈ group, r.Within observed.bytes.length)
    (hmarks : Marks mutable observed.bytes.length P) (key : Bytes) {expected : Bytes}
    (hne : expected ≠ []) :
    ∃ after, Marks after observed.bytes.length
        (fun index => P index ∨ ∃ r ∈ group, r.Covers index) ∧
      group.foldlM (takeReference observed key) (expected, mutable) =
        if ∀ r ∈ group, r.value observed.bytes = expected then .ok (expected, after)
        else .error (.inconsistent key) := by
  induction group generalizing mutable P with
  | nil => exact ⟨mutable, hmarks.imp (by simp), by simp [pure, Except.pure]⟩
  | cons reference rest ih =>
      obtain ⟨hfirst, hrest⟩ := List.forall_mem_cons.mp hwithin
      obtain ⟨middle, hmiddle, hround⟩ := takeReference_eq hfirst hmarks key expected
      obtain ⟨after, hafter, hrun⟩ := ih hrest hmiddle
      refine ⟨after, hafter.imp fun index => by simp [or_assoc], ?_⟩
      rw [List.foldlM_cons, hround]
      by_cases hsame : reference.value observed.bytes = expected
      · rw [if_neg (fun h => h.2 hsame.symm), if_neg hne]
        simp only [List.forall_mem_cons, hsame, true_and]
        exact hrun
      · rw [if_pos ⟨hne, Ne.symm hsame⟩, if_neg fun h => hsame (h reference List.mem_cons_self)]
        rfl

/-- The value of an immutable at its first reference. -/
def firstValue (bytes : Bytes) (group : List ImmutableReference) : Bytes :=
  (group.head?.map fun r => r.value bytes).getD []

/-- An immutable has one value at all of its references. -/
def Agree (bytes : Bytes) (group : List ImmutableReference) : Prop :=
  ∀ r ∈ group, r.value bytes = firstValue bytes group

instance (bytes : Bytes) (group : List ImmutableReference) : Decidable (Agree bytes group) :=
  inferInstanceAs (Decidable (∀ r ∈ group, _))

/-- One immutable. -/
theorem takeGroup_eq {references : References} {key : Bytes}
    (hne : references.getD key [] ≠ [])
    (hwithin : ∀ r ∈ references.getD key [], r.Within observed.bytes.length)
    (hmarks : Marks mutable observed.bytes.length P) (values : HashMap Bytes Bytes) :
    ∃ after, Marks after observed.bytes.length
        (fun index => P index ∨ ∃ r ∈ references.getD key [], r.Covers index) ∧
      takeGroup observed references (mutable, values) key =
        if Agree observed.bytes (references.getD key []) then
          .ok (after, values.insert key (ascii "0x" ++
            encodeHex (firstValue observed.bytes (references.getD key []))))
        else .error (.inconsistent key) := by
  unfold takeGroup
  generalize references.getD key [] = group at hne hwithin ⊢
  cases group with
  | nil => exact absurd rfl hne
  | cons reference rest =>
      obtain ⟨hfirst, hrest⟩ := List.forall_mem_cons.mp hwithin
      -- the first reference gives the value, which is not empty
      obtain ⟨middle, hmiddle, hround⟩ := takeReference_eq hfirst hmarks key []
      rw [if_neg (by simp), if_pos rfl] at hround
      obtain ⟨after, hafter, hrun⟩ := takeReferences_eq hrest hmiddle key hfirst.value_ne_nil
      refine ⟨after, hafter.imp fun index => by simp [or_assoc], ?_⟩
      have hagree : Agree observed.bytes (reference :: rest) ↔
          ∀ r ∈ rest, r.value observed.bytes = reference.value observed.bytes := by
        rw [Agree, List.forall_mem_cons]
        exact and_iff_right rfl
      rw [List.foldlM_cons, hround]
      show (rest.foldlM (takeReference observed key) (reference.value observed.bytes, middle) >>= _) = _
      rw [hrun]
      by_cases hsame : ∀ r ∈ rest, r.value observed.bytes = reference.value observed.bytes
      · rw [if_pos hsame, if_pos (hagree.mpr hsame)]
        rfl
      · rw [if_neg hsame, if_neg (mt hagree.mp hsame)]
        rfl

/-- The values of immutables, filed one after the other. -/
def fileValues (bytes : Bytes) (references : References) (keys : List Bytes)
    (values : HashMap Bytes Bytes) : HashMap Bytes Bytes :=
  keys.foldl (fun values key => values.insert key (ascii "0x" ++
    encodeHex (firstValue bytes (references.getD key [])))) values

/-- All immutables: the first that has two values stops the loop. -/
theorem takeGroups_eq {references : References} {keys : List Bytes}
    (hne : ∀ key ∈ keys, references.getD key [] ≠ [])
    (hwithin : ∀ key ∈ keys, ∀ r ∈ references.getD key [], r.Within observed.bytes.length)
    (hmarks : Marks mutable observed.bytes.length P) (values : HashMap Bytes Bytes) :
    (∃ after, Marks after observed.bytes.length
        (fun index => P index ∨ ∃ key ∈ keys, ∃ r ∈ references.getD key [], r.Covers index) ∧
      (∀ key ∈ keys, Agree observed.bytes (references.getD key [])) ∧
      keys.foldlM (takeGroup observed references) (mutable, values) =
        .ok (after, fileValues observed.bytes references keys values)) ∨
    ∃ key ∈ keys, ¬ Agree observed.bytes (references.getD key []) ∧
      keys.foldlM (takeGroup observed references) (mutable, values) = .error (.inconsistent key) := by
  induction keys generalizing mutable P values with
  | nil => exact Or.inl ⟨mutable, hmarks.imp (by simp), by simp, rfl⟩
  | cons key rest ih =>
      obtain ⟨hne, hne'⟩ := List.forall_mem_cons.mp hne
      obtain ⟨hwithin, hwithin'⟩ := List.forall_mem_cons.mp hwithin
      obtain ⟨middle, hmiddle, hround⟩ := takeGroup_eq hne hwithin hmarks values
      by_cases hagree : Agree observed.bytes (references.getD key [])
      · rw [if_pos hagree] at hround
        rw [List.foldlM_cons, hround]
        rcases ih hne' hwithin' hmiddle _ with ⟨after, hafter, hall, hrun⟩ | ⟨other, hmem, hnot, hrun⟩
        · refine Or.inl ⟨after, hafter.imp fun index => by simp [or_assoc], ?_, hrun⟩
          exact List.forall_mem_cons.mpr ⟨hagree, hall⟩
        · exact Or.inr ⟨other, List.mem_cons_of_mem _ hmem, hnot, hrun⟩
      · rw [if_neg hagree] at hround
        refine Or.inr ⟨key, List.mem_cons_self, hagree, ?_⟩
        rw [List.foldlM_cons, hround]
        rfl

/-- One byte of the template is compared unless a reference covers it. -/
theorem compareByte_eq {template : ByteSlice} {size : Nat} (hmarks : Marks mutable size P)
    (htemplate : template.bytes.length = size) (hobserved : observed.bytes.length = size) {index : Nat}
    (hindex : index < size) :
    (P index ∨ observed.bytes[index]? = template.bytes[index]?) ∧
        compareByte template observed mutable index = .ok () ∨
      ¬ (P index ∨ observed.bytes[index]? = template.bytes[index]?) ∧
        compareByte template observed mutable index = .error (.differs index) := by
  have hmutable : index < mutable.length := by rw [hmarks.length_eq]; exact hindex
  have hmarked := hmarks.marked_iff index hindex
  rw [List.getElem?_eq_getElem hmutable] at hmarked
  rw [compareByte, List.getElem?_eq_getElem hmutable,
    List.getElem?_eq_getElem (show index < template.bytes.length by omega),
    List.getElem?_eq_getElem (show index < observed.bytes.length by omega)]
  show _ ∧ (if mutable[index] = true then (pure () : Except TemplateError Unit) else
      revertIf (template.bytes[index] ≠ observed.bytes[index]) (.differs index)) = _ ∨
    _ ∧ (if mutable[index] = true then (pure () : Except TemplateError Unit) else
      revertIf (template.bytes[index] ≠ observed.bytes[index]) (.differs index)) = _
  by_cases hP : P index
  · have htrue : mutable[index] = true := Option.some.inj (hmarked.mpr hP)
    exact Or.inl ⟨Or.inl hP, by rw [if_pos htrue]; rfl⟩
  · have hfalse : ¬ mutable[index] = true := fun h => hP (hmarked.mp (by rw [h]))
    rw [if_neg hfalse]
    by_cases hbyte : template.bytes[index] = observed.bytes[index]
    · exact Or.inl ⟨Or.inr (by rw [hbyte]), revertIf_eq_ok.mpr (not_not.mpr hbyte)⟩
    · refine Or.inr ⟨?_, revertIf_eq_error.mpr ⟨hbyte, rfl⟩⟩
      rintro (h | h)
      · exact hP h
      · exact hbyte (Option.some.inj h).symm

end Loops

/-! ## The comparison as a whole -/

section Comparison

variable {template observed : ByteSlice} {references : References}

/-- One value at all references of an immutable, and its length. -/
theorem agree_iff {group : List ImmutableReference} (hne : group ≠ [])
    (hwithin : ∀ r ∈ group, r.Within observed.bytes.length) :
    Agree observed.bytes group ↔
      ∃ value : Bytes, value.length = 32 ∧ ∀ r ∈ group, r.value observed.bytes = value := by
  cases group with
  | nil => exact absurd rfl hne
  | cons reference rest =>
      constructor
      · exact fun h => ⟨_, (hwithin reference List.mem_cons_self).length_value, h⟩
      · rintro ⟨value, -, hall⟩ r hr
        rw [hall r hr]
        exact (hall reference List.mem_cons_self).symm

/-- The values that are filed for the keys of a checked map are the reported ones. -/
theorem reports_fileValues {rt : Runtime KeyLoop} (hchecked : Checked observed.bytes.length references)
    (hagree : ∀ key group, references.lookup key = some group → Agree observed.bytes group) :
    Reports observed.bytes references (fileValues observed.bytes references
      (rt.sort bytesLess (rt.visit .compare references.keys)) ∅) := by
  intro key
  rw [fileValues, HashMap.lookup_foldl_insert (fun key => ascii "0x" ++
    encodeHex (firstValue observed.bytes (references.getD key [])))]
  cases hlookup : references.lookup key with
  | none =>
      rw [if_neg fun hkey => ?_]
      · rfl
      · obtain ⟨group, hgroup⟩ := mem_visited.mp hkey
        rw [hlookup] at hgroup
        cases hgroup
  | some group =>
      obtain ⟨value, hvalue, hall⟩ := (agree_iff (hchecked.nonempty key group hlookup)
        (hchecked.within key group hlookup)).mp (hagree key group hlookup)
      refine ⟨value, hvalue, hall, ?_⟩
      rw [if_pos (mem_visited.mpr ⟨group, hlookup⟩), getD_of_lookup hlookup]
      have hfirst : firstValue observed.bytes group = value := by
        cases group with
        | nil => exact absurd rfl (hchecked.nonempty key [] hlookup)
        | cons reference rest => exact hall reference List.mem_cons_self
      rw [hfirst]

/-- The ways the comparison can end, for code of the template's length. -/
theorem compareRuntimeTemplate_cases (rt : Runtime KeyLoop)
    (hchecked : Checked observed.bytes.length references)
    (hlength : observed.bytes.length = template.bytes.length) :
    (∃ values, compareRuntimeTemplate rt template observed references = .ok values ∧
      MatchesTemplate template.bytes observed.bytes references ∧
      Reports observed.bytes references values) ∨
    (∃ key group, references.lookup key = some group ∧ ¬ Agree observed.bytes group ∧
      compareRuntimeTemplate rt template observed references = .error (.inconsistent key)) ∨
    ∃ index < template.bytes.length,
      (∀ key group, references.lookup key = some group → ∀ r ∈ group, ¬ r.Covers index) ∧
      observed.bytes[index]? ≠ template.bytes[index]? ∧
      compareRuntimeTemplate rt template observed references = .error (.differs index) := by
  have hgroups : ∀ key ∈ rt.sort bytesLess (rt.visit .compare references.keys),
      references.getD key [] ≠ [] ∧
        ∀ r ∈ references.getD key [], r.Within observed.bytes.length := by
    intro key hkey
    obtain ⟨group, hlookup⟩ := mem_visited.mp hkey
    rw [getD_of_lookup hlookup]
    exact ⟨hchecked.nonempty key group hlookup, hchecked.within key group hlookup⟩
  have hcompare : compareRuntimeTemplate rt template observed references =
      (rt.sort bytesLess (rt.visit .compare references.keys)).foldlM (takeGroup observed references)
          (List.replicate observed.bytes.length false, ∅) >>= fun state =>
        (List.range template.bytes.length).forM (compareByte template observed state.1) >>=
          fun _ => pure state.2 := by
    rw [compareRuntimeTemplate, revertIf, if_neg (not_not.mpr hlength), hlength]
    rfl
  rcases takeGroups_eq (fun key hkey => (hgroups key hkey).1) (fun key hkey => (hgroups key hkey).2)
    (Marks.none observed.bytes.length) ∅ with
    ⟨mutable, hmarks, hagree, hrun⟩ | ⟨key, hkey, hdisagree, hrun⟩
  · have hresult : compareRuntimeTemplate rt template observed references =
        (List.range template.bytes.length).forM (compareByte template observed mutable) >>= fun _ =>
          pure (fileValues observed.bytes references
            (rt.sort bytesLess (rt.visit .compare references.keys)) ∅) := by
      rw [hcompare, hrun]
      rfl
    -- an index is marked when a reference covers it
    have hcovered : ∀ index, (False ∨ ∃ key ∈ rt.sort bytesLess (rt.visit .compare references.keys),
        ∃ r ∈ references.getD key [], r.Covers index) ↔
        ∃ key group, references.lookup key = some group ∧ ∃ r ∈ group, r.Covers index := by
      intro index
      rw [false_or]
      constructor
      · rintro ⟨key, hkey, hcovers⟩
        obtain ⟨group, hlookup⟩ := mem_visited.mp hkey
        exact ⟨key, group, hlookup, getD_of_lookup hlookup ▸ hcovers⟩
      · rintro ⟨key, group, hlookup, hcovers⟩
        refine ⟨key, mem_visited.mpr ⟨group, hlookup⟩, ?_⟩
        rw [getD_of_lookup hlookup]
        exact hcovers
    have hbyte := fun index (hindex : index < template.bytes.length) =>
      compareByte_eq (hmarks.imp hcovered) hlength.symm rfl (hlength ▸ hindex)
    have hagree' : ∀ key group, references.lookup key = some group → Agree observed.bytes group :=
      fun key group hlookup =>
        getD_of_lookup hlookup ▸ hagree key (mem_visited.mpr ⟨group, hlookup⟩)
    cases hloop : (List.range template.bytes.length).forM (compareByte template observed mutable) with
    | ok u =>
        refine Or.inl ⟨fileValues observed.bytes references
          (rt.sort bytesLess (rt.visit .compare references.keys)) ∅, ?_, ⟨hlength, ?_, ?_⟩, ?_⟩
        · rw [hresult, hloop]
          rfl
        · intro index hindex huncovered
          have hpassed := forM_eq_ok.mp hloop index (List.mem_range.mpr hindex)
          rcases hbyte index hindex with ⟨hequal, -⟩ | ⟨-, herror⟩
          · refine hequal.resolve_left ?_
            rintro ⟨key, group, hlookup, r, hr, hcovers⟩
            exact huncovered key group hlookup r hr hcovers
          · rw [herror] at hpassed
            cases hpassed
        · intro key group hlookup
          exact (agree_iff (hchecked.nonempty key group hlookup)
            (hchecked.within key group hlookup)).mp (hagree' key group hlookup)
        · exact reports_fileValues hchecked hagree'
    | error reason =>
        obtain ⟨index, hmem, herror⟩ := forM_eq_error hloop
        have hindex := List.mem_range.mp hmem
        rcases hbyte index hindex with ⟨-, hok⟩ | ⟨hdiffers, hreason⟩
        · rw [hok] at herror
          cases herror
        · rw [herror] at hreason
          cases hreason
          refine Or.inr (Or.inr ⟨index, hindex, fun key group hlookup r hr hcovers => ?_, ?_, ?_⟩)
          · exact hdiffers (Or.inl ⟨key, group, hlookup, r, hr, hcovers⟩)
          · exact fun hequal => hdiffers (Or.inr hequal)
          · rw [hresult, hloop]
            rfl
  · obtain ⟨group, hlookup⟩ := mem_visited.mp hkey
    rw [getD_of_lookup hlookup] at hdisagree
    refine Or.inr (Or.inl ⟨key, group, hlookup, hdisagree, ?_⟩)
    rw [hcompare, hrun]
    rfl

/-- After the check of the references no index is out of range. Code passes exactly when it is the
template but for one value of 32 bytes at the references of each immutable, and these values are
returned. -/
theorem compareRuntimeTemplate_spec {rt rt' : Runtime KeyLoop}
    (h : validateImmutableReferences rt template references = .ok ()) :
    compareRuntimeTemplate rt' template observed references ≠ .error .outOfRange ∧
    ((∃ values, compareRuntimeTemplate rt' template observed references = .ok values) ↔
      MatchesTemplate template.bytes observed.bytes references) ∧
    ∀ values, compareRuntimeTemplate rt' template observed references = .ok values →
      Reports observed.bytes references values := by
  have hchecked := checked_of_validate h
  by_cases hlength : observed.bytes.length = template.bytes.length
  · rw [← hlength] at hchecked
    rcases compareRuntimeTemplate_cases rt' hchecked hlength with
      ⟨values, hok, hmatches, hreports⟩ | ⟨key, group, hlookup, hdisagree, herror⟩ |
      ⟨index, hindex, huncovered, hdiffers, herror⟩
    · rw [hok]
      refine ⟨by simp, iff_of_true ⟨values, rfl⟩ hmatches, fun other hother => ?_⟩
      exact Except.ok.inj hother ▸ hreports
    · rw [herror]
      refine ⟨by simp, iff_of_false (by simp) fun hmatches => hdisagree ?_, by simp⟩
      exact (agree_iff (hchecked.nonempty key group hlookup)
        (hchecked.within key group hlookup)).mpr (hmatches.inside key group hlookup)
    · rw [herror]
      refine ⟨by simp, iff_of_false (by simp) fun hmatches => hdiffers ?_, by simp⟩
      exact hmatches.outside index hindex huncovered
  · have herror : compareRuntimeTemplate rt' template observed references =
        .error (.lengthMismatch observed.bytes.length template.bytes.length) := by
      rw [compareRuntimeTemplate, revertIf, if_pos hlength]
      rfl
    rw [herror]
    exact ⟨by simp, iff_of_false (by simp) fun hmatches => hlength hmatches.length_eq, by simp⟩

end Comparison

namespace Sample

/-- A template of 76 bytes that refers to one immutable twice. -/
def template : ByteSlice := ⟨List.replicate 76 0, by decide⟩

def references : References := AList.insert (ascii "7") [⟨4, 32⟩, ⟨40, 32⟩] ∅

/-- The template with a value at each of the references. -/
def deployed (first second : UInt8) : ByteSlice :=
  ⟨List.replicate 4 0 ++ List.replicate 32 first ++ List.replicate 4 0 ++
    List.replicate 32 second ++ List.replicate 4 0, by simp⟩

/-- The code of a template with an immutable is compared without leaving its range: it passes with
one value at both references, and not with two. -/
theorem deployed_compared :
    validateImmutableReferences (Runtime.plain KeyLoop) template references = .ok () ∧
      compareRuntimeTemplate (Runtime.plain KeyLoop) template (deployed 0xab 0xab) references ≠
        .error .outOfRange ∧
      (∃ values, compareRuntimeTemplate (Runtime.plain KeyLoop) template (deployed 0xab 0xab)
          references = .ok values ∧
        MatchesTemplate template.bytes (deployed 0xab 0xab).bytes references ∧
        Reports (deployed 0xab 0xab).bytes references values) ∧
      ¬ MatchesTemplate template.bytes (deployed 0xab 0xcd).bytes references := by
  have hruns : validateImmutableReferences (Runtime.plain KeyLoop) template references = .ok () ∧
      (compareRuntimeTemplate (Runtime.plain KeyLoop) template (deployed 0xab 0xab)
        references).isOk = true ∧
      (compareRuntimeTemplate (Runtime.plain KeyLoop) template (deployed 0xab 0xcd)
        references).isOk = false := by
    decide +kernel
  obtain ⟨hvalid, hok, hbad⟩ := hruns
  obtain ⟨values, hvalues⟩ := exists_of_isOk hok
  obtain ⟨hrange, hiff, hreports⟩ := @compareRuntimeTemplate_spec template (deployed 0xab 0xab)
    references (Runtime.plain KeyLoop) (Runtime.plain KeyLoop) hvalid
  refine ⟨hvalid, hrange, ⟨values, hvalues, hiff.mp ⟨values, hvalues⟩, hreports values hvalues⟩,
    fun hmatches => ?_⟩
  obtain ⟨other, hother⟩ := (@compareRuntimeTemplate_spec template (deployed 0xab 0xcd)
    references (Runtime.plain KeyLoop) (Runtime.plain KeyLoop) hvalid).2.1.mpr hmatches
  rw [hother] at hbad
  exact Bool.noConfusion hbad

end Sample

end Igit.Operator
