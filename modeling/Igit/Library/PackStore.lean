import Igit.Library.Fallible

/-!
# Object graphs in packs

Objects link to other objects. A pack holds some objects, possibly stored as differences against
base objects outside the pack, which must be there already when the pack is loaded. Packs are
fetched by key and loaded one after the other into a growing store.

`loadAll` is that loop. What it ends with is what the packs hold (`mem_loadAll`), and a list of keys
may be spliced into another one without repeating what is already there (`loadAll_extendBy`,
`loadAll_foldl_extendBy`). A list of packs is self-contained for an object when it loads into an
empty store and yields everything the object reaches.
-/

namespace Igit

open Fallible

section Graph

variable {Obj : Type}

/-- `target` can be reached from `source` along links. -/
abbrev Reaches (links : Obj → List Obj) (source target : Obj) : Prop :=
  Relation.ReflTransGen (fun a b => b ∈ links a) source target

/-- A set that contains its start, holds nothing out of reach and is closed under links is exactly
what can be reached. -/
theorem reaches_iff_mem {links : Obj → List Obj} {source : Obj} {closure : List Obj}
    (hsource : source ∈ closure) (hsound : ∀ o ∈ closure, Reaches links source o)
    (hclosed : ∀ o ∈ closure, ∀ next ∈ links o, next ∈ closure) {target : Obj} :
    Reaches links source target ↔ target ∈ closure := by
  refine ⟨fun hreach => ?_, hsound target⟩
  exact reflTransGen_preserves (P := fun o => o ∈ closure)
    (fun o next hlink hmem => hclosed o hmem next hlink) hreach hsource

end Graph

/-- The objects of a pack, and the objects outside the pack that some of them are stored against. -/
structure Pack (Obj : Type) where
  objects : List Obj
  bases : List Obj
  deriving DecidableEq, Repr

section Loading

variable {Obj Key ε : Type}

/-- Some pack of the list holds the object. -/
def Holds (resolve : Key → Except ε (Pack Obj)) (keys : List Key) (o : Obj) : Prop :=
  ∃ key ∈ keys, ∃ pack, resolve key = .ok pack ∧ o ∈ pack.objects

theorem holds_append {resolve : Key → Except ε (Pack Obj)} {keys more : List Key} {o : Obj} :
    Holds resolve (keys ++ more) o ↔ Holds resolve keys o ∨ Holds resolve more o := by
  simp only [Holds, List.mem_append, or_and_right, exists_or]

variable [DecidableEq Obj] (resolve : Key → Except ε (Pack Obj)) (missingBase : Key → ε)

/-- Fetch one pack and load it. Every base must be in the store. -/
def load (store : List Obj) (key : Key) : Except ε (List Obj) := do
  let pack ← resolve key
  revertIf (¬ ∀ base ∈ pack.bases, base ∈ store) (missingBase key)
  pure (pack.objects ++ store)

/-- Load the packs one after the other. -/
def loadAll (store : List Obj) (keys : List Key) : Except ε (List Obj) :=
  keys.foldlM (load resolve missingBase) store

variable {resolve missingBase} {store out : List Obj} {key : Key} {keys more : List Key} {o : Obj}

/-- A pack is loaded when it can be resolved and its bases are in the store. -/
theorem load_eq_ok : load resolve missingBase store key = .ok out ↔
    ∃ pack, resolve key = .ok pack ∧ (∀ base ∈ pack.bases, base ∈ store) ∧
      out = pack.objects ++ store := by
  simp only [load, bind_eq_ok, revertIf_eq_ok, exists_unit, pure_eq_ok, not_not,
    eq_comm (b := out)]

theorem loadAll_nil : loadAll resolve missingBase store [] = .ok out ↔ out = store := by
  rw [loadAll, List.foldlM_nil, pure_eq_ok, eq_comm]

theorem loadAll_cons : loadAll resolve missingBase store (key :: keys) = .ok out ↔
    ∃ middle, load resolve missingBase store key = .ok middle ∧
      loadAll resolve missingBase middle keys = .ok out := by
  rw [loadAll, List.foldlM_cons, bind_eq_ok]
  rfl

/-- A list of packs is loaded in parts. -/
theorem loadAll_append : loadAll resolve missingBase store (keys ++ more) = .ok out ↔
    ∃ middle, loadAll resolve missingBase store keys = .ok middle ∧
      loadAll resolve missingBase middle more = .ok out := by
  rw [loadAll, List.foldlM_append, bind_eq_ok]
  rfl

theorem loadAll_singleton : loadAll resolve missingBase store [key] = .ok out ↔
    load resolve missingBase store key = .ok out := by
  simp only [loadAll_cons, loadAll_nil]
  constructor
  · rintro ⟨middle, hload, rfl⟩
    exact hload
  · intro hload
    exact ⟨out, hload, rfl⟩

/-- The store ends with what was there and what the packs hold. -/
theorem mem_loadAll (h : loadAll resolve missingBase store keys = .ok out) :
    o ∈ out ↔ o ∈ store ∨ Holds resolve keys o := by
  induction keys generalizing store with
  | nil =>
      rw [loadAll_nil.mp h]
      simp [Holds]
  | cons key rest ih =>
      obtain ⟨middle, hload, hrest⟩ := loadAll_cons.mp h
      obtain ⟨pack, hpack, -, rfl⟩ := load_eq_ok.mp hload
      have hone : Holds resolve [key] o ↔ o ∈ pack.objects := by
        simp [Holds, hpack]
      rw [ih hrest, List.mem_append, show key :: rest = [key] ++ rest from rfl, holds_append, hone]
      tauto

/-- The bases of every pack that was loaded are in the store. -/
theorem mem_of_base {pack : Pack Obj} {base : Obj}
    (h : loadAll resolve missingBase store keys = .ok out) (hkey : key ∈ keys)
    (hpack : resolve key = .ok pack) (hbase : base ∈ pack.bases) : base ∈ out := by
  obtain ⟨first, last, rfl⟩ := List.append_of_mem hkey
  obtain ⟨before, -, hrest⟩ := loadAll_append.mp h
  obtain ⟨middle, hload, hlast⟩ := loadAll_cons.mp hrest
  obtain ⟨loaded, hloaded, hbases, rfl⟩ := load_eq_ok.mp hload
  obtain rfl : pack = loaded := Except.ok.inj (hpack.symm.trans hloaded)
  exact (mem_loadAll hlast).mpr (.inl (List.mem_append_right _ (hbases base hbase)))

/-- The packs load into an empty store and hold everything that can be reached from `tip`. -/
def SelfContained (resolve : Key → Except ε (Pack Obj)) (missingBase : Key → ε)
    (links : Obj → List Obj) (tip : Obj) (keys : List Key) : Prop :=
  ∃ out, loadAll resolve missingBase [] keys = .ok out ∧ ∀ o, Reaches links tip o → o ∈ out

end Loading

/-! ## Splicing lists of keys -/

section Extending

variable {Key : Type} [DecidableEq Key]

/-- The list extended by the keys it does not hold yet. -/
def extendBy (current keys : List Key) : List Key :=
  keys.foldl (fun acc key => if key ∈ acc then acc else acc ++ [key]) current

variable {current keys : List Key} {key : Key}

theorem extendBy_cons : extendBy current (key :: keys) =
    extendBy (if key ∈ current then current else current ++ [key]) keys := rfl

theorem mem_extendBy : key ∈ extendBy current keys ↔ key ∈ current ∨ key ∈ keys := by
  induction keys generalizing current with
  | nil => simp [extendBy]
  | cons first rest ih =>
      rw [extendBy_cons, ih]
      by_cases hmem : first ∈ current
      · rw [if_pos hmem, List.mem_cons]
        constructor
        · tauto
        · rintro (h | rfl | h)
          · exact .inl h
          · exact .inl hmem
          · exact .inr h
      · rw [if_neg hmem, List.mem_append, List.mem_singleton, List.mem_cons]
        tauto

variable {Obj ε : Type} {resolve : Key → Except ε (Pack Obj)} {o : Obj}

theorem holds_extendBy : Holds resolve (extendBy current keys) o ↔
    Holds resolve current o ∨ Holds resolve keys o := by
  simp only [Holds, mem_extendBy, or_and_right, exists_or]

variable [DecidableEq Obj] {missingBase : Key → ε} {base start loaded yields : List Obj}

/-- Keys that load on top of a part of what a list yields load as an extension of that list. -/
theorem loadAll_extendBy (hcurrent : loadAll resolve missingBase base current = .ok yields)
    (hstart : start ⊆ yields) (hkeys : loadAll resolve missingBase start keys = .ok loaded) :
    ∃ out, loadAll resolve missingBase base (extendBy current keys) = .ok out ∧ yields ⊆ out ∧
      loaded ⊆ out := by
  -- the start of the shorter run stays inside what the extended list yields so far
  induction keys generalizing current start yields with
  | nil =>
      rw [loadAll_nil.mp hkeys]
      exact ⟨yields, hcurrent, List.Subset.refl _, hstart⟩
  | cons key rest ih =>
      obtain ⟨middle, hload, hrest⟩ := loadAll_cons.mp hkeys
      obtain ⟨pack, hpack, hbases, rfl⟩ := load_eq_ok.mp hload
      rw [extendBy_cons]
      by_cases hmem : key ∈ current
      · rw [if_pos hmem]
        refine ih hcurrent (List.append_subset.mpr ⟨fun o ho => ?_, hstart⟩) hrest
        exact (mem_loadAll hcurrent).mpr (.inr ⟨key, hmem, pack, hpack, ho⟩)
      · rw [if_neg hmem]
        have hextended : loadAll resolve missingBase base (current ++ [key]) =
            .ok (pack.objects ++ yields) :=
          loadAll_append.mpr ⟨yields, hcurrent, loadAll_singleton.mpr (load_eq_ok.mpr
            ⟨pack, hpack, fun needed hneeded => hstart (hbases needed hneeded), rfl⟩)⟩
        have hsub : pack.objects ++ start ⊆ pack.objects ++ yields :=
          List.append_subset.mpr ⟨List.subset_append_left _ _,
            fun o ho => List.mem_append_right _ (hstart ho)⟩
        obtain ⟨out, hout, hyields, hloaded⟩ := ih hextended hsub hrest
        exact ⟨out, hout, List.Subset.trans (List.subset_append_right _ _) hyields, hloaded⟩

/-- Lists that each load into an empty store load together, each key once. -/
theorem loadAll_foldl_extendBy {lists : List (List Key)}
    (hlists : ∀ keys ∈ lists, ∃ out, loadAll resolve missingBase [] keys = .ok out)
    (hcurrent : loadAll resolve missingBase base current = .ok yields) :
    ∃ out, loadAll resolve missingBase base (lists.foldl extendBy current) = .ok out ∧
      yields ⊆ out ∧
      ∀ keys ∈ lists, ∀ part, loadAll resolve missingBase [] keys = .ok part → part ⊆ out := by
  induction lists generalizing current yields with
  | nil => exact ⟨yields, hcurrent, List.Subset.refl _, by simp⟩
  | cons keys rest ih =>
      obtain ⟨part, hpart⟩ := hlists keys (by simp)
      obtain ⟨extended, hextended, hyields, hsub⟩ :=
        loadAll_extendBy hcurrent (List.nil_subset _) hpart
      obtain ⟨out, hout, hmore, hrest⟩ :=
        ih (fun other hother => hlists other (List.mem_cons_of_mem _ hother)) hextended
      refine ⟨out, hout, List.Subset.trans hyields hmore, fun other hother found hfound => ?_⟩
      rcases List.mem_cons.mp hother with rfl | hother
      · rw [← Except.ok.inj (hpart.symm.trans hfound)]
        exact List.Subset.trans hsub hmore
      · exact hrest other hother found hfound

end Extending

end Igit
