import Igit.Library.Fallible

/-!
# Decoding documents into records

A JSON document is decoded into a value of a given shape, as by Go's `encoding/json` with unknown
fields disallowed: a member of an object goes into the field of its name, or else into the first field
whose name is the same up to case, and a `null` leaves its field alone unless that is a list. When
several members go into one field the last of them wins. `decode` has a parameter for this, so that a
reader for which the first one wins can be compared with it.

`Everywhere` lifts a property of the members that set a field from one object to all objects that a
decoding goes through. `SetOnce` says that no field is set twice; then it does not matter which member
wins (`decode_eq_of_setOnce`).
-/

namespace Igit.Json

open Fallible

/-- Texts, as code points. -/
abbrev Text := List Char

/-- A document. A number has a value when its literal is an integer. -/
inductive Doc where
  | null
  | bool (value : Bool)
  | number (value : Option Int)
  | string (text : Text)
  | array (items : List Doc)
  | object (members : List (Text × Doc))

/-- The tokens of a document, without commas and colons. -/
inductive Token where
  | openArray
  | closeArray
  | openObject
  | closeObject
  | string (text : Text)
  /-- `null`, a truth value or a number -/
  | literal
  deriving DecidableEq

/-- What a document is decoded into. -/
inductive Shape where
  | text
  | flag
  | number (low high : Int)
  | list (item : Shape)
  | record (fields : List (Text × Shape))

/-- A decoded value. The fields of a record are in the order of its shape. -/
inductive Value where
  | text (text : Text)
  | flag (value : Bool)
  | number (value : Int)
  | list (items : List Value)
  | record (fields : List Value)

namespace Doc

/-- Induction over the parts of a document. -/
@[elab_as_elim, induction_eliminator]
theorem induct {P : Doc → Prop} (null : P .null) (bool : ∀ value, P (.bool value))
    (number : ∀ value, P (.number value)) (string : ∀ text, P (.string text))
    (array : ∀ items, (∀ item ∈ items, P item) → P (.array items))
    (object : ∀ members, (∀ member ∈ members, P member.2) → P (.object members)) (doc : Doc) :
    P doc := by
  refine @Doc.rec P (fun items => ∀ item ∈ items, P item)
    (fun members => ∀ member ∈ members, P member.2) (fun member => P member.2)
    null bool number string array object ?_ ?_ ?_ ?_ (fun _ _ h => h) doc
  · exact fun _ h => absurd h List.not_mem_nil
  · exact fun head tail hhead htail => List.forall_mem_cons.mpr ⟨hhead, htail⟩
  · exact fun _ h => absurd h List.not_mem_nil
  · exact fun head tail hhead htail => List.forall_mem_cons.mpr ⟨hhead, htail⟩

mutual

/-- The tokens of a document. -/
def tokens : Doc → List Token
  | .null => [.literal]
  | .bool _ => [.literal]
  | .number _ => [.literal]
  | .string text => [.string text]
  | .array items => .openArray :: (tokensOfItems items ++ [.closeArray])
  | .object members => .openObject :: (tokensOfMembers members ++ [.closeObject])

/-- The tokens of the items of an array. -/
def tokensOfItems : List Doc → List Token
  | [] => []
  | item :: rest => item.tokens ++ tokensOfItems rest

/-- The tokens of the members of an object. -/
def tokensOfMembers : List (Text × Doc) → List Token
  | [] => []
  | (name, value) :: rest => .string name :: (value.tokens ++ tokensOfMembers rest)

end

mutual

/-- No object of the document has two members of one name. -/
def KeysDistinct : Doc → Prop
  | .array items => ItemsDistinct items
  | .object members => (members.map Prod.fst).Nodup ∧ MembersDistinct members
  | _ => True

def ItemsDistinct : List Doc → Prop
  | [] => True
  | item :: rest => item.KeysDistinct ∧ ItemsDistinct rest

def MembersDistinct : List (Text × Doc) → Prop
  | [] => True
  | (_, value) :: rest => value.KeysDistinct ∧ MembersDistinct rest

end

theorem itemsDistinct_iff {items : List Doc} :
    ItemsDistinct items ↔ ∀ item ∈ items, item.KeysDistinct := by
  induction items with
  | nil => exact iff_of_true trivial fun _ h => absurd h List.not_mem_nil
  | cons item rest ih => rw [ItemsDistinct, ih, List.forall_mem_cons]

theorem membersDistinct_iff {members : List (Text × Doc)} :
    MembersDistinct members ↔ ∀ member ∈ members, member.2.KeysDistinct := by
  induction members with
  | nil => exact iff_of_true trivial fun _ h => absurd h List.not_mem_nil
  | cons member rest ih => rw [MembersDistinct, ih, List.forall_mem_cons]

end Doc

/-! ## Fields -/

/-- How names are compared up to case: code point by code point, and in ASCII by upper case. -/
structure Folding where
  foldRune : Char → Char
  ascii : ∀ c : Char, c.toNat < 128 → foldRune c = c.toUpper

namespace Folding

variable (folding : Folding)

/-- A name without its case. -/
def fold (name : Text) : Text := name.map folding.foldRune

/-- The field a member goes into, with its shape: the field of that name, or else the first one whose
name is the same up to case. -/
def field (fields : List (Text × Shape)) (name : Text) : Option (Nat × Shape) := do
  let i ← (fields.findIdx? fun f => f.1 = name).or
    (fields.findIdx? fun f => folding.fold f.1 = folding.fold name)
  let (_, shape) ← fields[i]?
  pure (i, shape)

variable {folding}

/-- The field of a member has its name, up to case. -/
theorem field_eq_some {fields : List (Text × Shape)} {name : Text} {i : Nat} {shape : Shape}
    (h : folding.field fields name = some (i, shape)) :
    ∃ known, fields[i]? = some (known, shape) ∧ folding.fold known = folding.fold name := by
  simp only [field, Option.bind_eq_bind, Option.bind_eq_some_iff, Option.pure_def,
    Option.some.injEq, Prod.mk.injEq, Option.or_eq_some_iff] at h
  obtain ⟨j, hfound, ⟨known, found⟩, hat, rfl, rfl⟩ := h
  refine ⟨known, hat, ?_⟩
  rcases hfound with hexact | ⟨-, hfolded⟩
  · obtain ⟨hlt, hname, -⟩ := List.findIdx?_eq_some_iff_getElem.mp hexact
    rw [List.getElem?_eq_getElem hlt, Option.some.injEq] at hat
    rw [hat] at hname
    exact congrArg folding.fold (of_decide_eq_true hname)
  · obtain ⟨hlt, hname, -⟩ := List.findIdx?_eq_some_iff_getElem.mp hfolded
    rw [List.getElem?_eq_getElem hlt, Option.some.injEq] at hat
    rw [hat] at hname
    exact of_decide_eq_true hname

/-- When the names of the fields differ in more than case, two members go into one field exactly when
their names are the same up to case. -/
theorem field_eq_iff {fields : List (Text × Shape)}
    (hfields : (fields.map fun f => folding.fold f.1).Nodup) {name name' : Text} {i j : Nat}
    {shape shape' : Shape} (h : folding.field fields name = some (i, shape))
    (h' : folding.field fields name' = some (j, shape')) :
    i = j ↔ folding.fold name = folding.fold name' := by
  obtain ⟨known, hat, hknown⟩ := field_eq_some h
  obtain ⟨known', hat', hknown'⟩ := field_eq_some h'
  constructor
  · rintro rfl
    rw [hat, Option.some.injEq, Prod.mk.injEq] at hat'
    rw [← hknown, ← hknown', hat'.1]
  · intro hsame
    have hfold : ∀ {k : Nat} {entry : Text × Shape}, fields[k]? = some entry →
        (fields.map fun f => folding.fold f.1)[k]? = some (folding.fold entry.1) := by
      intro k entry hentry
      rw [List.getElem?_map, hentry]
      rfl
    have hi := hfold hat
    have hj := hfold hat'
    rw [← hknown, ← hknown'] at hsame
    rw [hsame] at hi
    have hlt : i < (fields.map fun f => folding.fold f.1).length :=
      (List.getElem?_eq_some_iff.mp hi).1
    exact (List.getElem?_inj hlt hfields).mp (hi.trans hj.symm)

end Folding

/-! ## Decoding -/

/-- Which of several members wins. -/
inductive Winner where
  | first
  | last
  deriving DecidableEq

inductive DecodeError where
  | unknownField (name : Text)
  | mismatch
  deriving DecidableEq

mutual

/-- The value of a shape before anything is decoded into it. -/
def Shape.zero : Shape → Value
  | .text => .text []
  | .flag => .flag false
  | .number _ _ => .number 0
  | .list _ => .list []
  | .record fields => .record (zeros fields)

/-- The fields of a record before anything is decoded into them. -/
def zeros : List (Text × Shape) → List Value
  | [] => []
  | (_, shape) :: rest => shape.zero :: zeros rest

end

/-- A record during its decoding: its fields, and which of them have been set. -/
structure Filled where
  values : List Value
  done : List Nat

/-- Put what a member was decoded to into its field. -/
def Filled.put (winner : Winner) (filled : Filled) (i : Nat) : Option Value → Filled
  | none => filled
  | some value =>
      if winner = .first ∧ i ∈ filled.done then filled
      else ⟨filled.values.set i value, i :: filled.done⟩

section Decode

variable (folding : Folding) (winner : Winner)

mutual

/-- Decode a document. The result is `none` when it leaves the place as it was. -/
def decode : Doc → Shape → Except DecodeError (Option Value)
  | .null, .list _ => .ok (some (.list []))
  | .null, _ => .ok none
  | .string text, .text => .ok (some (.text text))
  | .bool value, .flag => .ok (some (.flag value))
  | .number (some value), .number low high =>
      if low ≤ value ∧ value ≤ high then .ok (some (.number value)) else .error .mismatch
  | .array items, .list item => do
      let values ← decodeItems items item
      .ok (some (.list values))
  | .object members, .record fields => do
      let filled ← decodeMembers members fields ⟨zeros fields, []⟩
      .ok (some (.record filled.values))
  | _, _ => .error .mismatch

/-- Decode the items of an array. -/
def decodeItems : List Doc → Shape → Except DecodeError (List Value)
  | [], _ => .ok []
  | doc :: rest, item => do
      let value ← decode doc item
      let values ← decodeItems rest item
      .ok (value.getD item.zero :: values)

/-- Decode the members of an object into the fields of a record. -/
def decodeMembers : List (Text × Doc) → List (Text × Shape) → Filled → Except DecodeError Filled
  | [], _, filled => .ok filled
  | (name, doc) :: rest, fields, filled =>
      match folding.field fields name with
      | none => .error (.unknownField name)
      | some (i, shape) => do
          let value ← decode doc shape
          decodeMembers rest fields (filled.put winner i value)

end

end Decode

/-- A document sets the place it is decoded into, unless it is a `null` for anything but a list. -/
def sets : Doc → Shape → Bool
  | .null, .list _ => true
  | .null, _ => false
  | _, _ => true

/-- A document that does not set its place leaves it alone. -/
theorem decode_of_not_sets {folding : Folding} {winner : Winner} {doc : Doc} {shape : Shape}
    (h : sets doc shape = false) : decode folding winner doc shape = .ok none := by
  cases doc with
  | null =>
      cases shape with
      | list item => cases h
      | _ => rfl
  | _ => cases h

section Everywhere

variable (folding : Folding)

/-- The field that a member sets. -/
def target (fields : List (Text × Shape)) (member : Text × Doc) : Option Nat :=
  match folding.field fields member.1 with
  | some (i, shape) => if sets member.2 shape then some i else none
  | none => none

/-- The members that set a field. -/
def setters (fields : List (Text × Shape)) (members : List (Text × Doc)) : List (Text × Doc) :=
  members.filter fun member => (target folding fields member).isSome

variable (P : List (Text × Shape) → List (Text × Doc) → Prop)

mutual

/-- A property of the fields of a record and the members that set them, for every object that the
decoding of a document goes through. -/
def Everywhere : Doc → Shape → Prop
  | .array items, .list item => EveryItem items item
  | .object members, .record fields =>
      P fields (setters folding fields members) ∧ EveryMember members fields
  | _, _ => True

def EveryItem : List Doc → Shape → Prop
  | [], _ => True
  | doc :: rest, item => Everywhere doc item ∧ EveryItem rest item

def EveryMember : List (Text × Doc) → List (Text × Shape) → Prop
  | [], _ => True
  | (name, doc) :: rest, fields =>
      (match folding.field fields name with
        | some (_, shape) => Everywhere doc shape
        | none => True) ∧ EveryMember rest fields

end

mutual

/-- The property can be checked when it can for one object. -/
def decideEverywhere [∀ fields members, Decidable (P fields members)] :
    ∀ doc shape, Decidable (Everywhere folding P doc shape)
  | .array items, .list item => decideEveryItem items item
  | .object members, .record fields =>
      @instDecidableAnd _ _ inferInstance (decideEveryMember members fields)
  | .null, _ => .isTrue trivial
  | .bool _, _ => .isTrue trivial
  | .number _, _ => .isTrue trivial
  | .string _, _ => .isTrue trivial
  | .array _, .text => .isTrue trivial
  | .array _, .flag => .isTrue trivial
  | .array _, .number _ _ => .isTrue trivial
  | .array _, .record _ => .isTrue trivial
  | .object _, .text => .isTrue trivial
  | .object _, .flag => .isTrue trivial
  | .object _, .number _ _ => .isTrue trivial
  | .object _, .list _ => .isTrue trivial

def decideEveryItem [∀ fields members, Decidable (P fields members)] :
    ∀ items item, Decidable (EveryItem folding P items item)
  | [], _ => .isTrue trivial
  | doc :: rest, item => @instDecidableAnd _ _ (decideEverywhere doc item) (decideEveryItem rest item)

def decideEveryMember [∀ fields members, Decidable (P fields members)] :
    ∀ members fields, Decidable (EveryMember folding P members fields)
  | [], _ => .isTrue trivial
  | (name, doc) :: rest, fields =>
      @instDecidableAnd _ _
        (match folding.field fields name with
          | some (_, shape) => decideEverywhere doc shape
          | none => .isTrue trivial)
        (decideEveryMember rest fields)

end

instance [∀ fields members, Decidable (P fields members)] {doc : Doc} {shape : Shape} :
    Decidable (Everywhere folding P doc shape) := decideEverywhere folding P doc shape

variable {folding P}

theorem everyItem_iff {items : List Doc} {item : Shape} :
    EveryItem folding P items item ↔ ∀ doc ∈ items, Everywhere folding P doc item := by
  induction items with
  | nil => exact iff_of_true trivial fun _ h => absurd h List.not_mem_nil
  | cons doc rest ih => rw [EveryItem, ih, List.forall_mem_cons]

theorem everyMember_iff {members : List (Text × Doc)} {fields : List (Text × Shape)} :
    EveryMember folding P members fields ↔ ∀ member ∈ members, ∀ i shape,
      folding.field fields member.1 = some (i, shape) → Everywhere folding P member.2 shape := by
  induction members with
  | nil => exact iff_of_true trivial fun _ h => absurd h List.not_mem_nil
  | cons member rest ih =>
      obtain ⟨name, doc⟩ := member
      rw [EveryMember, ih, List.forall_mem_cons]
      refine and_congr_left fun _ => ?_
      cases hfield : folding.field fields name with
      | none => exact iff_of_true trivial nofun
      | some found =>
          constructor
          · rintro h i shape heq
            cases heq
            exact h
          · intro h
            exact h found.1 found.2 rfl

end Everywhere

mutual

/-- The names of the fields of every record differ in more than case. -/
def Shape.Plain (folding : Folding) : Shape → Prop
  | .list item => item.Plain folding
  | .record fields => (fields.map fun f => folding.fold f.1).Nodup ∧ FieldsPlain folding fields
  | _ => True

def FieldsPlain (folding : Folding) : List (Text × Shape) → Prop
  | [] => True
  | (_, shape) :: rest => shape.Plain folding ∧ FieldsPlain folding rest

end

variable {folding : Folding}

theorem fieldsPlain_iff {fields : List (Text × Shape)} :
    FieldsPlain folding fields ↔ ∀ f ∈ fields, f.2.Plain folding := by
  induction fields with
  | nil => exact iff_of_true trivial fun _ h => absurd h List.not_mem_nil
  | cons f rest ih => rw [FieldsPlain, ih, List.forall_mem_cons]

mutual

/-- A check for plain shapes: all names are in ASCII and differ in upper case. -/
def Shape.asciiPlain : Shape → Bool
  | .list item => item.asciiPlain
  | .record fields =>
      fields.all (fun f => f.1.all fun c => c.toNat < 128) &&
        decide (fields.map fun f => f.1.map Char.toUpper).Nodup && fieldsAsciiPlain fields
  | _ => true

def fieldsAsciiPlain : List (Text × Shape) → Bool
  | [] => true
  | (_, shape) :: rest => shape.asciiPlain && fieldsAsciiPlain rest

end

/-- In ASCII folding is upper case. -/
theorem Folding.fold_ascii {name : Text} (h : (name.all fun c => c.toNat < 128) = true) :
    folding.fold name = name.map Char.toUpper :=
  List.map_congr_left fun c hc => folding.ascii c (of_decide_eq_true (List.all_eq_true.mp h c hc))

mutual

theorem Shape.plain_of_asciiPlain : ∀ shape : Shape, shape.asciiPlain = true → shape.Plain folding
  | .text, _ => trivial
  | .flag, _ => trivial
  | .number _ _, _ => trivial
  | .list item, h => Shape.plain_of_asciiPlain item h
  | .record fields, h => by
      rw [Shape.asciiPlain, Bool.and_eq_true, Bool.and_eq_true, decide_eq_true_eq] at h
      obtain ⟨⟨hascii, hnodup⟩, hfields⟩ := h
      refine ⟨?_, fieldsPlain_of_asciiPlain fields hfields⟩
      rwa [List.map_congr_left fun f hf => Folding.fold_ascii (List.all_eq_true.mp hascii f hf)]

theorem fieldsPlain_of_asciiPlain : ∀ fields : List (Text × Shape),
    fieldsAsciiPlain fields = true → FieldsPlain folding fields
  | [], _ => trivial
  | (_, shape) :: rest, h => by
      rw [fieldsAsciiPlain, Bool.and_eq_true] at h
      exact ⟨Shape.plain_of_asciiPlain shape h.1, fieldsPlain_of_asciiPlain rest h.2⟩

end

/-! ## Fields that are set once -/

variable (folding) in
/-- No field is set by two members. -/
def SetOnce : Doc → Shape → Prop :=
  Everywhere folding fun fields members => (members.map (target folding fields)).Nodup

variable (folding) in
/-- No two members that set fields of one object have names that differ in case alone. -/
def CaseApart : Doc → Shape → Prop :=
  Everywhere folding fun _ members => ∀ member ∈ members, ∀ other ∈ members,
    folding.fold member.1 = folding.fold other.1 → member.1 = other.1

instance {doc : Doc} {shape : Shape} : Decidable (SetOnce folding doc shape) :=
  inferInstanceAs (Decidable (Everywhere folding _ doc shape))

instance {doc : Doc} {shape : Shape} : Decidable (CaseApart folding doc shape) :=
  inferInstanceAs (Decidable (Everywhere folding _ doc shape))

/-- A member that sets a field has one. -/
theorem field_of_mem_setters {fields : List (Text × Shape)} {members : List (Text × Doc)}
    {member : Text × Doc} (h : member ∈ setters folding fields members) :
    ∃ i shape, folding.field fields member.1 = some (i, shape) ∧
      target folding fields member = some i := by
  have hsome := (List.mem_filter.mp h).2
  cases hfield : folding.field fields member.1 with
  | none =>
      rw [target, hfield] at hsome
      cases hsome
  | some found =>
      refine ⟨found.1, found.2, rfl, ?_⟩
      rw [target, hfield] at hsome ⊢
      cases hsets : sets member.2 found.2 with
      | false =>
          simp only [hsets] at hsome
          cases hsome
      | true =>
          show (if sets member.2 found.2 = true then some found.1 else none) = some found.1
          rw [if_pos hsets]

/-- With distinct names, two members set one field exactly when their names differ in case. -/
theorem nodup_targets_iff {fields : List (Text × Shape)} {members : List (Text × Doc)}
    (hnames : (members.map Prod.fst).Nodup)
    (hfields : (fields.map fun f => folding.fold f.1).Nodup) :
    ((setters folding fields members).map (target folding fields)).Nodup ↔
      ∀ member ∈ setters folding fields members, ∀ other ∈ setters folding fields members,
        folding.fold member.1 = folding.fold other.1 → member.1 = other.1 := by
  have hsetters : ((setters folding fields members).map Prod.fst).Nodup :=
    hnames.sublist ((List.filter_sublist).map Prod.fst)
  rw [List.nodup_map_iff_inj_on (List.Nodup.of_map _ hsetters)]
  have hinj := List.inj_on_of_nodup_map hsetters
  refine forall₂_congr fun member hmember => forall₂_congr fun other hother => ?_
  obtain ⟨i, shape, hfield, htarget⟩ := field_of_mem_setters hmember
  obtain ⟨j, shape', hfield', htarget'⟩ := field_of_mem_setters hother
  rw [htarget, htarget', Option.some.injEq, Folding.field_eq_iff hfields hfield hfield']
  exact imp_congr_right fun _ => ⟨congrArg Prod.fst, hinj hmember hother⟩

/-- In a document without repeated names and for plain shapes, every field is set once exactly when no
two names differ in case alone. -/
theorem setOnce_iff_caseApart {doc : Doc} {shape : Shape} (hkeys : doc.KeysDistinct)
    (hplain : shape.Plain folding) : SetOnce folding doc shape ↔ CaseApart folding doc shape := by
  unfold SetOnce CaseApart
  induction doc generalizing shape with
  | array items ih =>
      cases shape with
      | list item =>
          rw [Everywhere, Everywhere, everyItem_iff, everyItem_iff]
          have hitems := Doc.itemsDistinct_iff.mp hkeys
          exact forall₂_congr fun doc hdoc => ih doc hdoc (hitems doc hdoc) hplain
      | _ => rfl
  | object members ih =>
      cases shape with
      | record fields =>
          obtain ⟨hnames, hmembers⟩ := hkeys
          obtain ⟨hfolded, hfields⟩ := hplain
          rw [Everywhere, Everywhere, everyMember_iff, everyMember_iff,
            nodup_targets_iff hnames hfolded]
          refine and_congr_right fun _ => forall₂_congr fun member hmember => ?_
          refine forall₂_congr fun i shape => imp_congr_right fun hfield => ?_
          obtain ⟨known, hat, -⟩ := Folding.field_eq_some hfield
          have hshape := fieldsPlain_iff.mp hfields _ (List.mem_of_getElem? hat)
          exact ih member hmember (Doc.membersDistinct_iff.mp hmembers member hmember) hshape
      | _ => rfl
  | _ => rfl

/-! ## One reading -/

/-- The members with a value, mapped to it. -/
theorem map_filter_isSome {α β : Type} (f : α → Option β) (items : List α) :
    (items.filter fun item => (f item).isSome).map f = (items.filterMap f).map some := by
  induction items with
  | nil => rfl
  | cons item rest ih =>
      cases hitem : f item with
      | none => simp [hitem, ih]
      | some value => simp [hitem, ih]

/-- Members that set different fields, none of which has been set, are decoded alike whoever wins. -/
theorem decodeMembers_eq {fields : List (Text × Shape)} {members : List (Text × Doc)} {filled : Filled}
    (hdecode : ∀ member ∈ members, ∀ i shape, folding.field fields member.1 = some (i, shape) →
      decode folding .first member.2 shape = decode folding .last member.2 shape)
    (hnodup : (members.filterMap (target folding fields)).Nodup)
    (hnew : ∀ i ∈ members.filterMap (target folding fields), i ∉ filled.done) :
    decodeMembers folding .first members fields filled =
      decodeMembers folding .last members fields filled := by
  induction members generalizing filled with
  | nil => rfl
  | cons member rest ih =>
      obtain ⟨name, doc⟩ := member
      have hrest := fun member hmember => hdecode member (List.mem_cons_of_mem _ hmember)
      rw [decodeMembers, decodeMembers]
      cases hfield : folding.field fields name with
      | none => rfl
      | some found =>
          obtain ⟨i, shape⟩ := found
          show (decode folding .first doc shape >>= fun value => _) =
            decode folding .last doc shape >>= fun value => _
          rw [hdecode (name, doc) List.mem_cons_self i shape hfield]
          cases hsets : sets doc shape with
          | false =>
              -- the member leaves its field alone
              have htarget : target folding fields (name, doc) = none := by
                simp only [target, hfield, hsets]
                rfl
              rw [decode_of_not_sets hsets]
              rw [List.filterMap_cons_none htarget] at hnodup hnew
              exact ih hrest hnodup hnew
          | true =>
              have htarget : target folding fields (name, doc) = some i := by
                simp only [target, hfield, hsets]
                rfl
              rw [List.filterMap_cons_some htarget] at hnodup hnew
              have hfresh := hnew i List.mem_cons_self
              cases decode folding .last doc shape with
              | error reason => rfl
              | ok value =>
                  have hput : filled.put .first i value = filled.put .last i value := by
                    cases value with
                    | none => rfl
                    | some value =>
                        simp only [Filled.put, hfresh, and_false, if_false, reduceCtorEq]
                  show decodeMembers folding .first rest fields (filled.put .first i value) =
                    decodeMembers folding .last rest fields (filled.put .last i value)
                  rw [hput]
                  refine ih hrest (List.nodup_cons.mp hnodup).2 fun j hj => ?_
                  have hother : j ≠ i := fun heq => (List.nodup_cons.mp hnodup).1 (heq ▸ hj)
                  have hold := hnew j (List.mem_cons_of_mem _ hj)
                  cases value with
                  | none => exact hold
                  | some value =>
                      simp only [Filled.put, reduceCtorEq, false_and, if_false, List.mem_cons,
                        not_or]
                      exact ⟨hother, hold⟩

/-- A document in which no field is set twice has one reading: it does not matter whether the first or
the last member wins. -/
theorem decode_eq_of_setOnce {doc : Doc} {shape : Shape} (h : SetOnce folding doc shape) :
    decode folding .first doc shape = decode folding .last doc shape := by
  unfold SetOnce at h
  induction doc generalizing shape with
  | array items ih =>
      cases shape with
      | list item =>
          have hitems := everyItem_iff.mp h
          have hsame : decodeItems folding .first items item = decodeItems folding .last items item := by
            clear h
            induction items with
            | nil => rfl
            | cons doc rest ihRest =>
                rw [decodeItems, decodeItems, ih doc List.mem_cons_self (hitems doc List.mem_cons_self),
                  ihRest (fun doc hdoc => ih doc (List.mem_cons_of_mem _ hdoc))
                    fun doc hdoc => hitems doc (List.mem_cons_of_mem _ hdoc)]
          rw [decode, decode, hsame]
      | _ => rfl
  | object members ih =>
      cases shape with
      | record fields =>
          obtain ⟨hnodup, hmembers⟩ := h
          rw [setters, map_filter_isSome] at hnodup
          rw [decode, decode, decodeMembers_eq (fun member hmember i shape hfield => ?_)
            (List.Nodup.of_map _ hnodup) fun _ _ => List.not_mem_nil]
          exact ih member hmember (everyMember_iff.mp hmembers member hmember i shape hfield)
      | _ => rfl
  | null =>
      cases shape with
      | _ => rfl
  | bool value =>
      cases shape with
      | _ => rfl
  | number value =>
      cases value with
      | none =>
          cases shape with
          | _ => rfl
      | some value =>
          cases shape with
          | _ => rfl
  | string text =>
      cases shape with
      | _ => rfl

end Igit.Json
