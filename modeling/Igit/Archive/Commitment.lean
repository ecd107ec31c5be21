import Igit.Archive.Inventory
import Igit.Library.HashChain
import Igit.Library.Lines

/-!
# The event commitment

The replay folds each event of the contract into a commitment: the digest of the last commitment and
the event's canonical text, which has a NUL byte between its fields. A Go map is a `Finmap` up to the
order of its loops, and the canonical text does not depend on that order (`canonicalEvent_eq`). The
commitment of an inventory is the one of the events that were replayed (`scanTransactions_commitment`).

A NUL byte inside a field reads as the end of it: two events have one text exactly when they have the
same pieces between the NUL bytes (`ContractEvent.canonical_eq_iff`). Which events no other event has
the text of is said by `ContractEvent.Unambiguous` (`ContractEvent.unambiguous_iff`). The commitment
binds a history of such events against every other one, and histories without NUL bytes against each
other (`commitment_binds_iff`).
-/

namespace Igit.Archive

open Fallible
open Migration (ascii bytesLess orders_bytes)

/-- An event of the contract, as the commitment takes it. -/
structure ContractEvent where
  height : UInt64
  index : UInt32
  hash : Bytes
  eventIndex : Nat
  action : Bytes
  attributes : Finmap fun _ : Bytes => Bytes

/-- The event that `apply` gets. -/
def ContractEvent.of (tx : OrderedTx) (eventIndex : Nat) (action : Bytes)
    (attributes : Attributes) : ContractEvent :=
  ⟨tx.height, tx.index, tx.hash, eventIndex, action, attributes.toFinmap⟩

/-! ## The canonical text -/

/-- The entries of a map as pairs. -/
def pairs (attributes : Attributes) : List (Bytes × Bytes) :=
  attributes.entries.map fun entry => (entry.1, entry.2)

/-- The entries of a map, by key. -/
def sortedPairs (attributes : Attributes) : List (Bytes × Bytes) :=
  (Runtime.plain Unit).sort (fun a b => bytesLess a.1 b.1) (pairs attributes)

theorem map_fst_pairs (attributes : Attributes) :
    (pairs attributes).map Prod.fst = attributes.keys := by
  rw [pairs, List.map_map]
  rfl

theorem keyed_pairs (attributes : Attributes) :
    Keyed (fun a b => bytesLess a.1 b.1) (pairs attributes) :=
  .intro Prod.fst orders_bytes rfl (fun _ _ => trivial) (by
    rw [map_fst_pairs]
    exact attributes.keys_nodup)

theorem sortedPairs_perm (attributes : Attributes) :
    (sortedPairs attributes).Perm (pairs attributes) :=
  Runtime.sort_perm _ _ _

/-- The order of the entries does not matter. -/
theorem sortedPairs_congr {attributes other : Attributes}
    (h : attributes.entries.Perm other.entries) : sortedPairs attributes = sortedPairs other :=
  Runtime.sort_unique _ _ (keyed_pairs attributes) (h.symm.map _)

namespace ContractEvent

variable (e : ContractEvent)

/-- The attributes by key. -/
def sorted : List (Bytes × Bytes) :=
  e.attributes.liftOn sortedPairs fun _ _ h => sortedPairs_congr h

/-- The fields of the canonical text. -/
def fields : List Bytes :=
  decimal e.height.toNat :: decimal e.index.toNat :: e.hash :: decimal e.eventIndex :: e.action ::
    e.sorted.flatMap fun pair => [pair.1, pair.2]

/-- The canonical text: the fields with NUL between them. -/
def canonical : Bytes := List.intercalate [0] e.fields

/-- The pieces of the canonical text: the fields, cut at the NUL bytes in them. -/
def pieces : List Bytes := e.fields.flatMap (List.splitOn 0)

end ContractEvent

theorem intercalate_cons {α : Type} (sep : α) (first : List α) (rest : List (List α)) :
    List.intercalate [sep] (first :: rest) = first ++ rest.flatMap fun text => sep :: text := by
  induction rest generalizing first with
  | nil => simp [List.intercalate]
  | cons second later ih =>
      rw [List.intercalate_cons_of_ne_nil (by simp), ih, List.append_assoc, List.flatMap_cons]
      rfl

/-- The sorted keys are those of the sorted entries. -/
theorem sort_keys_eq (rt : Runtime MapLoop) (loop : MapLoop) (attributes : Attributes) :
    rt.sort bytesLess (rt.visit loop attributes.keys) = (sortedPairs attributes).map Prod.fst := by
  have hnodup : (attributes.keys.map id).Nodup := by
    rw [List.map_id]
    exact attributes.keys_nodup
  have hkeyed : Keyed bytesLess attributes.keys :=
    .intro id orders_bytes rfl (fun _ _ => trivial) hnodup
  have hsorted := (Runtime.plain Unit).sortedBy (keyed_pairs attributes)
  have hkeys : SortedBy bytesLess attributes.keys ((sortedPairs attributes).map Prod.fst) := by
    refine ⟨?_, List.pairwise_map.mpr hsorted.ordered⟩
    rw [← map_fst_pairs]
    exact hsorted.perm.map _
  have hvisit := rt.visit_perm loop attributes.keys
  rw [← rt.sort_unique rt hkeyed hvisit]
  exact (rt.sortedBy hkeyed).unique hkeys (.refl _) orders_bytes (fun _ _ => trivial) hnodup

/-- `canonicalEvent` gives the canonical text, in whatever order it meets the attributes. -/
theorem canonicalEvent_eq (rt : Runtime MapLoop) (tx : OrderedTx) (eventIndex : Nat) (action : Bytes)
    (attributes : Attributes) :
    canonicalEvent rt tx eventIndex action attributes =
      (ContractEvent.of tx eventIndex action attributes).canonical := by
  have hvalue : ∀ pair ∈ sortedPairs attributes,
      HashMap.getD attributes pair.1 [] = pair.2 := by
    intro pair hpair
    obtain ⟨entry, hentry, rfl⟩ := List.mem_map.mp ((sortedPairs_perm attributes).mem_iff.mp hpair)
    have hlookup : attributes.lookup entry.1 = some entry.2 := AList.mem_lookup_iff.mpr hentry
    show (attributes.lookup entry.1).getD [] = entry.2
    rw [hlookup]
    rfl
  have hattributes : ((sortedPairs attributes).map Prod.fst).flatMap
        (fun key => 0 :: key ++ 0 :: HashMap.getD attributes key []) =
      ((sortedPairs attributes).flatMap fun pair => [pair.1, pair.2]).flatMap
        fun text => 0 :: text := by
    rw [List.flatMap_map, List.flatMap_assoc]
    refine List.flatMap_congr fun pair hpair => ?_
    rw [hvalue pair hpair]
    simp
  show _ ++ _ = List.intercalate [0] (_ :: _)
  rw [sort_keys_eq, hattributes, intercalate_cons]
  simp [ContractEvent.of, ContractEvent.sorted]

namespace ContractEvent

variable {e e' : ContractEvent}

/-- Two events have one canonical text exactly when they have the same pieces. -/
theorem canonical_eq_iff : e.canonical = e'.canonical ↔ e.pieces = e'.pieces :=
  intercalate_eq_iff (List.cons_ne_nil _ _) (List.cons_ne_nil _ _)

/-- An event without NUL bytes in its texts. -/
structure NulFree (e : ContractEvent) : Prop where
  hash : 0 ∉ e.hash
  action : 0 ∉ e.action
  attributes : ∀ pair ∈ e.sorted, 0 ∉ pair.1 ∧ 0 ∉ pair.2

theorem nul_notMem_decimal (n : Nat) : 0 ∉ decimal n := by
  intro h
  have hdigit := isDigit_of_mem_decimal h
  cases hdigit

/-- The fields of an event without NUL bytes are its pieces. -/
theorem NulFree.pieces_eq (h : e.NulFree) : e.pieces = e.fields := by
  refine flatMap_splitOn_of_notMem fun text htext => ?_
  simp only [fields, List.mem_cons, List.mem_flatMap, List.not_mem_nil, or_false] at htext
  rcases htext with rfl | rfl | rfl | rfl | rfl | ⟨pair, hpair, rfl | rfl⟩
  · exact nul_notMem_decimal _
  · exact nul_notMem_decimal _
  · exact h.hash
  · exact nul_notMem_decimal _
  · exact h.action
  · exact (h.attributes pair hpair).1
  · exact (h.attributes pair hpair).2

/-- A flat list of pairs determines the pairs. -/
theorem flatMap_pairs_injective {α : Type} {items other : List (α × α)}
    (h : (items.flatMap fun pair => [pair.1, pair.2]) =
      other.flatMap fun pair => [pair.1, pair.2]) : items = other := by
  induction items generalizing other with
  | nil =>
      cases other with
      | nil => rfl
      | cons pair later => simp at h
  | cons pair later ih =>
      cases other with
      | nil => simp at h
      | cons pair' later' =>
          simp only [List.flatMap_cons, List.cons_append, List.nil_append, List.cons.injEq] at h
          obtain ⟨hkey, hvalue, hlater⟩ := h
          rw [ih hlater, Prod.ext hkey hvalue]

/-- The sorted attributes determine the map. -/
theorem attributes_eq_of_sorted (h : e.sorted = e'.sorted) : e.attributes = e'.attributes := by
  obtain ⟨_, _, _, _, _, attributes⟩ := e
  obtain ⟨_, _, _, _, _, attributes'⟩ := e'
  induction attributes using Finmap.induction_on with
  | H attributes =>
      induction attributes' using Finmap.induction_on with
      | H attributes' =>
          have hsame : (pairs attributes).Perm (pairs attributes') := by
            refine (sortedPairs_perm attributes).symm.trans ?_
            rw [show sortedPairs attributes = sortedPairs attributes' from h]
            exact sortedPairs_perm attributes'
          have hinj : Function.Injective
              fun entry : (_ : Bytes) × Bytes => (entry.1, entry.2) := by
            intro a b hab
            obtain ⟨hkey, hvalue⟩ := Prod.mk.inj hab
            exact Sigma.ext hkey (heq_of_eq hvalue)
          exact AList.toFinmap_eq.mpr ((List.map_perm_map_iff hinj).mp hsame)

/-- The fields determine the event. -/
theorem eq_of_fields (h : e.fields = e'.fields) : e = e' := by
  simp only [fields, List.cons.injEq] at h
  obtain ⟨hheight, hindex, hhash, heventIndex, haction, hattributes⟩ := h
  have hsorted : e.attributes = e'.attributes :=
    attributes_eq_of_sorted (flatMap_pairs_injective hattributes)
  have hheight' : e.height = e'.height := UInt64.toNat_inj.mp (decimal_injective hheight)
  have hindex' : e.index = e'.index := UInt32.toNat_inj.mp (decimal_injective hindex)
  obtain ⟨_, _, _, _, _, _⟩ := e
  obtain ⟨_, _, _, _, _, _⟩ := e'
  simp_all [decimal_injective.eq_iff]

/-- Without NUL bytes the canonical text determines the event. -/
theorem NulFree.eq_of_canonical (h : e.NulFree) (h' : e'.NulFree)
    (heq : e.canonical = e'.canonical) : e = e' := by
  have hpieces := canonical_eq_iff.mp heq
  rw [h.pieces_eq, h'.pieces_eq] at hpieces
  exact eq_of_fields hpieces

/-! ## Events that no other event has the text of -/

/-- The decimal text of some number. -/
def IsNumeral (text : Bytes) : Prop := (parseDecimal text).map decimal = some text

instance : DecidablePred IsNumeral := fun text =>
  inferInstanceAs (Decidable ((parseDecimal text).map decimal = some text))

theorem isNumeral_iff {text : Bytes} : IsNumeral text ↔ ∃ n, decimal n = text := by
  constructor
  · intro h
    obtain ⟨n, -, hn⟩ := Option.map_eq_some_iff.mp h
    exact ⟨n, hn⟩
  · rintro ⟨n, rfl⟩
    simp [IsNumeral]

/-- There are no attributes, the action has at most one NUL byte, and neither a piece of the hash
after its first NUL byte nor one of the action before its last one could be an event index. -/
structure Unambiguous (e : ContractEvent) : Prop where
  attributes : e.attributes = ∅
  action : (e.action.splitOn 0).length ≤ 2
  numbers : ∀ piece ∈ (e.hash.splitOn 0).tail ++ (e.action.splitOn 0).dropLast, ¬ IsNumeral piece

/-- The pieces by field. The height and the index are one piece each. -/
theorem pieces_eq (e : ContractEvent) :
    e.pieces = decimal e.height.toNat :: decimal e.index.toNat :: (e.hash.splitOn 0 ++
      decimal e.eventIndex :: (e.action.splitOn 0 ++
        e.sorted.flatMap fun pair => pair.1.splitOn 0 ++ pair.2.splitOn 0)) := by
  simp [pieces, fields, splitOn_of_notMem (nul_notMem_decimal _), List.flatMap_assoc]

theorem sorted_eq_nil : e.sorted = [] ↔ e.attributes = ∅ := by
  refine ⟨fun h => ?_, fun h => by rw [sorted, h]; rfl⟩
  exact @attributes_eq_of_sorted e { e with attributes := ∅ } h

theorem sorted_of_singleton {key value : Bytes} (h : e.attributes = Finmap.singleton key value) :
    e.sorted = [(key, value)] := by
  rw [sorted, h]
  rfl

theorem pieces_of_empty (h : e.attributes = ∅) :
    e.pieces = decimal e.height.toNat :: decimal e.index.toNat ::
      (e.hash.splitOn 0 ++ decimal e.eventIndex :: e.action.splitOn 0) := by
  rw [pieces_eq, sorted_eq_nil.mpr h, List.flatMap_nil, List.append_nil]

/-- The text of an unambiguous event is that of no other event. -/
theorem Unambiguous.eq_of_canonical (h : e.Unambiguous) (heq : e.canonical = e'.canonical) :
    e = e' := by
  have hpieces := canonical_eq_iff.mp heq
  rw [pieces_of_empty h.attributes, pieces_eq, List.cons.injEq, List.cons.injEq] at hpieces
  obtain ⟨hheight, hindex, hrest⟩ := hpieces
  have hnumeral : IsNumeral (decimal e'.eventIndex) := isNumeral_iff.mpr ⟨_, rfl⟩
  -- else the event index of the other one is a later piece of the hash, or one of the action
  have hhash : e.hash.splitOn 0 = e'.hash.splitOn 0 := by
    rcases List.append_eq_append_iff.mp hrest with ⟨more, hmore, htail⟩ | ⟨more, hmore, htail⟩
    · cases more with
      | nil => simpa using hmore.symm
      | cons piece more =>
          refine absurd hnumeral (h.numbers _ (List.mem_append_right _ ?_))
          rw [List.cons_append, List.cons.injEq] at htail
          rw [htail.2, List.dropLast_append_of_ne_nil (List.cons_ne_nil _ _),
            List.dropLast_cons_of_ne_nil (by simp)]
          simp
    · cases more with
      | nil => simpa using hmore
      | cons piece more =>
          refine absurd hnumeral (h.numbers _ (List.mem_append_left _ ?_))
          rw [hmore, List.tail_append_of_ne_nil (splitOn_ne_nil 0 _), (List.cons.inj htail).1]
          simp
  rw [hhash, List.append_cancel_left_eq, List.cons.injEq] at hrest
  obtain ⟨heventIndex, haction⟩ := hrest
  have hsorted : e'.sorted = [] := by
    cases hpairs : e'.sorted with
    | nil => rfl
    | cons pair later =>
        have hlength := h.action
        have hfirst := List.length_pos_iff.mpr (splitOn_ne_nil 0 e'.action)
        have hkey := List.length_pos_iff.mpr (splitOn_ne_nil 0 pair.1)
        have hvalue := List.length_pos_iff.mpr (splitOn_ne_nil 0 pair.2)
        simp only [haction, hpairs, List.flatMap_cons, List.length_append] at hlength
        omega
  rw [hsorted, List.flatMap_nil, List.append_nil] at haction
  have hheight' : e.height = e'.height := UInt64.toNat_inj.mp (decimal_injective hheight)
  have hindex' : e.index = e'.index := UInt32.toNat_inj.mp (decimal_injective hindex)
  have hattributes := h.attributes.trans (sorted_eq_nil.mp hsorted).symm
  obtain ⟨_, _, _, _, _, _⟩ := e
  obtain ⟨_, _, _, _, _, _⟩ := e'
  simp_all [decimal_injective.eq_iff, splitOn_injective.eq_iff]

/-- The same text with the attributes moved into the action. -/
theorem canonical_eq_merged (e : ContractEvent) :
    e.canonical = canonical { e with
      action := List.intercalate [0] (e.action :: e.sorted.flatMap fun pair => [pair.1, pair.2])
      attributes := ∅ } := by
  refine canonical_eq_iff.mpr (e.pieces_eq.trans (.trans ?_ (pieces_of_empty rfl).symm))
  rw [splitOn_intercalate_eq_flatMap (List.cons_ne_nil _ _)]
  simp [List.flatMap_assoc]

/-- The same text with an attribute made of the action's pieces. -/
theorem canonical_eq_attribute {action key : Bytes} {value : List Bytes}
    (hattributes : e.attributes = ∅) (haction : e.action.splitOn 0 = action :: key :: value)
    (hvalue : value ≠ []) :
    e.canonical = canonical { e with
      action := action, attributes := Finmap.singleton key (List.intercalate [0] value) } := by
  have hfree : ∀ piece ∈ action :: key :: value, 0 ∉ piece := fun piece hpiece =>
    (mem_splitOn (haction ▸ hpiece)).1
  obtain ⟨hfirst, hkey, hrest⟩ : 0 ∉ action ∧ 0 ∉ key ∧ ∀ piece ∈ value, 0 ∉ piece := by
    simpa using hfree
  rw [canonical_eq_iff, pieces_of_empty hattributes, pieces_eq, haction, sorted_of_singleton rfl]
  simp [splitOn_of_notMem hfirst, splitOn_of_notMem hkey,
    splitOn_intercalate_of_notMem hvalue hrest]

/-- The same text with another piece as the event index: the hash is what stands before it. -/
theorem splitOn_hash_of_regrouped {before after : List Bytes} {n : Nat}
    (hbound : ∀ e', e.canonical = e'.canonical → e = e') (hattributes : e.attributes = ∅)
    (hbefore : before ≠ []) (hafter : after ≠ [])
    (h : e.hash.splitOn 0 ++ decimal e.eventIndex :: e.action.splitOn 0 =
      before ++ decimal n :: after) : e.hash.splitOn 0 = before := by
  have hfree : ∀ piece ∈ before ++ decimal n :: after, 0 ∉ piece := by
    intro piece hpiece
    rw [← h, List.mem_append, List.mem_cons] at hpiece
    rcases hpiece with hpiece | rfl | hpiece
    · exact (mem_splitOn hpiece).1
    · exact nul_notMem_decimal _
    · exact (mem_splitOn hpiece).1
  have hhash := splitOn_intercalate_of_notMem hbefore fun piece hpiece =>
    hfree piece (by simp [hpiece])
  have haction := splitOn_intercalate_of_notMem hafter fun piece hpiece =>
    hfree piece (by simp [hpiece])
  have htext : e.canonical = canonical ⟨e.height, e.index, List.intercalate [0] before, n,
      List.intercalate [0] after, ∅⟩ := by
    refine canonical_eq_iff.mpr ((pieces_of_empty hattributes).trans
      (.trans ?_ (pieces_of_empty rfl).symm))
    rw [h, hhash, haction]
  rw [congrArg hash (hbound _ htext)]
  exact hhash

/-- An event is unambiguous exactly when no other event has its text. -/
theorem unambiguous_iff : e.Unambiguous ↔ ∀ e', e.canonical = e'.canonical → e = e' := by
  refine ⟨fun h e' => h.eq_of_canonical, fun h => ?_⟩
  have hattributes : e.attributes = ∅ := congrArg attributes (h _ e.canonical_eq_merged)
  refine ⟨hattributes, ?_, fun piece hpiece hnumeral => ?_⟩
  · by_contra hlength
    obtain ⟨action, key, value, haction, hvalue⟩ : ∃ action key value,
        e.action.splitOn 0 = action :: key :: value ∧ value ≠ [] := by
      match hsplit : e.action.splitOn 0 with
      | [] | [_] | [_, _] => simp [hsplit] at hlength
      | action :: key :: first :: rest => exact ⟨action, key, _, rfl, List.cons_ne_nil _ _⟩
    have hother := h _ (canonical_eq_attribute hattributes haction hvalue)
    have hmem : key ∈ e.attributes := by
      rw [hother, Finmap.mem_singleton]
    rw [hattributes] at hmem
    exact Finmap.notMem_empty hmem
  · obtain ⟨n, rfl⟩ := isNumeral_iff.mp hnumeral
    -- the pieces of the hash would be those before the number, which are fewer or more
    rcases List.mem_append.mp hpiece with hpiece | hpiece
    · obtain ⟨first, rest, hsplit⟩ := List.exists_cons_of_ne_nil (splitOn_ne_nil 0 e.hash)
      rw [hsplit, List.tail_cons] at hpiece
      obtain ⟨before, after, rfl⟩ := List.append_of_mem hpiece
      have hpieces : e.hash.splitOn 0 ++ decimal e.eventIndex :: e.action.splitOn 0 =
          (first :: before) ++ decimal n ::
            (after ++ decimal e.eventIndex :: e.action.splitOn 0) := by
        simp [hsplit]
      have hhash := splitOn_hash_of_regrouped h hattributes (by simp) (by simp) hpieces
      simp [hsplit] at hhash
    · obtain ⟨init, last, hsplit⟩ :=
        (List.eq_nil_or_concat' (e.action.splitOn 0)).resolve_left (splitOn_ne_nil 0 _)
      rw [hsplit, List.dropLast_concat] at hpiece
      obtain ⟨before, after, rfl⟩ := List.append_of_mem hpiece
      have hpieces : e.hash.splitOn 0 ++ decimal e.eventIndex :: e.action.splitOn 0 =
          (e.hash.splitOn 0 ++ decimal e.eventIndex :: before) ++ decimal n :: (after ++ [last]) := by
        simp [hsplit]
      have hhash := splitOn_hash_of_regrouped h hattributes (by simp) (by simp) hpieces
      simp at hhash

end ContractEvent

/-! ## The chain of digests -/

section Chain

variable {env : Env}

/-- The commitment before the first event. -/
def zeroDigest : Digest := Builder.empty.commitment

/-- The commitment after one more event. -/
def commitStep (env : Env) (commitment : Digest) (canonical : Bytes) : Digest :=
  env.sha256 (commitment.1 ++ canonical)

/-- A commitment after some more events. -/
def commitAll (env : Env) (commitment : Digest) (events : List ContractEvent) : Digest :=
  events.foldl (fun commitment e => commitStep env commitment e.canonical) commitment

/-- The commitment of a history. -/
def eventCommitment (env : Env) (history : List ContractEvent) : Digest :=
  commitAll env zeroDigest history

/-- What is hashed for a history. -/
def hashedTexts (env : Env) (history : List ContractEvent) : List Bytes :=
  (chainSteps (fun commitment _ canonical => commitStep env commitment canonical) 0 zeroDigest
    (history.map ContractEvent.canonical)).map fun made => made.1.1 ++ made.2.2

theorem eventCommitment_eq_chain (history : List ContractEvent) :
    eventCommitment env history =
      chain (fun commitment _ canonical => commitStep env commitment canonical) zeroDigest
        (history.map ContractEvent.canonical) := by
  rw [eventCommitment, commitAll, chain, chainFrom_eq_foldl, List.foldl_map]

/-- SHA-256 has no collision among some texts, and gives the digest of zeros for none of them. -/
structure CollisionFree (env : Env) (texts : List Bytes) : Prop where
  injective : ∀ text ∈ texts, ∀ other ∈ texts, env.sha256 text = env.sha256 other → text = other
  ne_zero : ∀ text ∈ texts, env.sha256 text ≠ zeroDigest

variable {history other : List ContractEvent}

/-- The commitment binds the canonical texts of a history. -/
theorem eventCommitment_eq_iff
    (h : CollisionFree env (hashedTexts env history ++ hashedTexts env other)) :
    eventCommitment env history = eventCommitment env other ↔
      history.map ContractEvent.canonical = other.map ContractEvent.canonical := by
  rw [eventCommitment_eq_chain, eventCommitment_eq_chain]
  refine ⟨fun heq => ?_, fun heq => by rw [heq]⟩
  refine chain_injective_of_steps (fun p hp q hq hstep => ?_) (fun p hp => ?_) heq
  · have htext := h.injective (p.1.1 ++ p.2.2) (List.mem_append_left _ (List.mem_map_of_mem hp))
      (q.1.1 ++ q.2.2) (List.mem_append_right _ (List.mem_map_of_mem hq)) hstep
    -- digests have one length, so that the text is cut at one place
    have hlength : p.1.1.length = q.1.1.length := p.1.2.trans q.1.2.symm
    obtain ⟨hdigest, hcanonical⟩ := List.append_inj htext hlength
    exact ⟨Subtype.ext hdigest, hcanonical⟩
  · refine h.ne_zero (p.1.1 ++ p.2.2) (List.mem_append.mpr ?_)
    exact hp.imp (fun hp => List.mem_map_of_mem hp) fun hp => List.mem_map_of_mem hp

/-- Histories with the same texts are the same when the text of an event is that of no other. -/
theorem eq_of_map_canonical
    (hevent : ∀ e ∈ history, ∀ e' ∈ other, e.canonical = e'.canonical → e = e')
    (h : history.map ContractEvent.canonical = other.map ContractEvent.canonical) :
    history = other := by
  induction history generalizing other with
  | nil =>
      cases other with
      | nil => rfl
      | cons e later => simp at h
  | cons e later ih =>
      cases other with
      | nil => simp at h
      | cons e' later' =>
          obtain ⟨hfirst, hrest⟩ := List.cons.inj h
          rw [hevent e List.mem_cons_self e' List.mem_cons_self hfirst,
            ih (fun e he e' he' => hevent e (List.mem_cons_of_mem _ he) e'
              (List.mem_cons_of_mem _ he')) hrest]

/-- The commitment tells a history apart from every other one exactly when each of its events is
unambiguous: where it has an attribute, or NUL bytes that could end a field, another history has the
same commitment. It tells histories apart that have no NUL byte in a hash, an action, an attribute's
name or its value. -/
theorem commitment_binds_iff (hsha : CollisionFree env (hashedTexts env history)) :
    ((∀ other, CollisionFree env (hashedTexts env history ++ hashedTexts env other) →
        eventCommitment env history = eventCommitment env other → history = other) ↔
      ∀ e ∈ history, e.Unambiguous) ∧
    ∀ other, CollisionFree env (hashedTexts env history ++ hashedTexts env other) →
      (∀ e ∈ history ++ other, e.NulFree) →
      eventCommitment env history = eventCommitment env other → history = other := by
  refine ⟨⟨fun h e he => ?_, fun h other hfree heq => ?_⟩, fun other hfree hnul heq => ?_⟩
  · rw [ContractEvent.unambiguous_iff]
    intro e' htext
    -- the other event in the place of this one
    obtain ⟨before, after, rfl⟩ := List.append_of_mem he
    have htexts : (before ++ e :: after).map ContractEvent.canonical =
        (before ++ e' :: after).map ContractEvent.canonical := by
      simp [htext]
    have hhashed : hashedTexts env (before ++ e' :: after) =
        hashedTexts env (before ++ e :: after) := by
      rw [hashedTexts, hashedTexts, htexts]
    have hfree : CollisionFree env (hashedTexts env (before ++ e :: after) ++
        hashedTexts env (before ++ e' :: after)) := by
      rw [hhashed]
      exact ⟨by simpa using hsha.injective, by simpa using hsha.ne_zero⟩
    have hsame := h _ hfree ((eventCommitment_eq_iff hfree).mpr htexts)
    exact (List.cons.inj (List.append_cancel_left hsame)).1
  · exact eq_of_map_canonical (fun e he e' _ => (h e he).eq_of_canonical)
      ((eventCommitment_eq_iff hfree).mp heq)
  · exact eq_of_map_canonical (fun e he e' he' => (hnul e (List.mem_append_left _ he)).eq_of_canonical
      (hnul e' (List.mem_append_right _ he'))) ((eventCommitment_eq_iff hfree).mp heq)

end Chain

/-! ## The commitment of a replay -/

section Replay

variable {env : Env} {rt : Runtime MapLoop} {target : Target}

/-- Only `apply` itself changes the commitment. -/
theorem Builder.perform_commitment (b : Builder) (blocks : HashMap UInt64 SourceBlock)
    (tx : OrderedTx) (eventIndex : Nat) (action sender : Bytes) (attributes : Attributes) :
    Returns (b.perform blocks tx eventIndex action sender attributes) fun after =>
      after.commitment = b.commitment := by
  unfold perform
  split <;>
    simp [addRepository, moveRepository, submitReport, followReport, addModeration,
      registerUsername, releaseUsername, awardBadge, registerRelease]

/-- The event of the contract that an event of a transaction is. -/
def contractEvent (contract : Bytes) (tx : OrderedTx) (event : AbciEvent × Nat) :
    Option ContractEvent :=
  let attributes := eventAttributes event.1
  let action := attributes.get "action"
  if isContractEvent event.1.type attributes contract = false ∨ action = [] then none
  else some (.of tx event.2 action attributes)

/-- The events of the contract in a transaction that succeeded. -/
def contractEvents (contract : Bytes) (tx : OrderedTx) : List ContractEvent :=
  if tx.code ≠ 0 then [] else tx.events.zipIdx.filterMap (contractEvent contract tx)

/-- An event of a transaction is committed when it is one of the contract. -/
theorem replayEvent_commitment {tx : OrderedTx} {sender : Bytes} {before after : Builder × Bool}
    {event : AbciEvent × Nat} (h : replayEvent env rt target tx sender before event = .ok after) :
    after.1.commitment =
      commitAll env before.1.commitment (contractEvent target.contract tx event).toList := by
  unfold replayEvent at h
  dsimp only at h
  unfold contractEvent
  by_cases hother : isContractEvent event.1.type (eventAttributes event.1) target.contract = false
  · rw [if_pos hother, pure_eq_ok] at h
    rw [if_pos (Or.inl hother), ← h]
    rfl
  rw [if_neg hother] at h
  by_cases haction : (eventAttributes event.1).get "action" = []
  · rw [if_pos haction, pure_eq_ok] at h
    rw [if_pos (Or.inr haction), ← h]
    rfl
  rw [if_neg haction, bind_eq_ok] at h
  obtain ⟨b, happly, hafter⟩ := h
  rw [mapError_eq_ok] at happly
  have hkept := Builder.perform_commitment _ _ _ _ _ _ _ b happly
  rw [pure_eq_ok] at hafter
  rw [if_neg (by tauto), ← hafter]
  show b.commitment = commitStep env before.1.commitment _
  rw [hkept, Builder.commit, canonicalEvent_eq]
  rfl

theorem foldl_commitAll {α : Type} (f : α → List ContractEvent) (items : List α)
    (commitment : Digest) :
    items.foldl (fun commitment item => commitAll env commitment (f item)) commitment =
      commitAll env commitment (items.flatMap f) := by
  induction items generalizing commitment with
  | nil => rfl
  | cons item rest ih =>
      rw [List.foldl_cons, ih, List.flatMap_cons, commitAll, commitAll, commitAll,
        List.foldl_append]

/-- A transaction is committed event by event. -/
theorem scanTransaction_commitment {before after : Scan} {tx : OrderedTx}
    (h : scanTransaction env rt target before tx = .ok after) :
    after.builder.commitment =
      commitAll env before.builder.commitment (contractEvents target.contract tx) := by
  simp only [scanTransaction, bind_eq_ok, exists_unit, revertIf_eq_ok] at h
  obtain ⟨-, -, -, block, -, -, -, h⟩ := h
  unfold contractEvents
  by_cases hcode : tx.code ≠ 0
  · rw [if_pos hcode, pure_eq_ok] at h
    rw [if_pos hcode, ← h]
    rfl
  rw [if_neg hcode, bind_eq_ok] at h
  obtain ⟨b, hreplay, hafter⟩ := h
  simp only [replayTransaction, bind_eq_ok, exists_unit] at hreplay
  obtain ⟨finish, hevents, -, hb⟩ := hreplay
  rw [pure_eq_ok] at hb hafter
  have htracked := @foldlM_tracks _ _ _ _ (fun sofar : Builder × Bool => sofar.1.commitment)
    (fun commitment event =>
      commitAll env commitment (contractEvent target.contract tx event).toList) _ _ _ _
    (fun before event after hround => replayEvent_commitment hround) hevents
  rw [foldl_commitAll] at htracked
  rw [if_neg hcode, ← hafter, ← hb, List.filterMap_eq_flatMap_toList]
  exact htracked

/-- The commitment of an inventory is that of the events of the contract, in the order of the
chain. -/
theorem scanTransactions_commitment {cutoverBlock : SourceBlock} {transactions : List OrderedTx}
    {s : Scan} (h : scanTransactions env rt target cutoverBlock transactions = .ok s) :
    s.builder.commitment =
      eventCommitment env (transactions.flatMap (contractEvents target.contract)) := by
  simp only [scanTransactions, bind_eq_ok, exists_unit] at h
  obtain ⟨finish, hscan, -, hs⟩ := h
  rw [pure_eq_ok] at hs
  have htracked := @foldlM_tracks _ _ _ _ (fun s : Scan => s.builder.commitment)
    (fun commitment tx => commitAll env commitment (contractEvents target.contract tx)) _ _ _ _
    (fun before tx after hround => scanTransaction_commitment hround) hscan
  rw [foldl_commitAll] at htracked
  rw [← hs]
  exact htracked

/-- The commitment in an inventory is that of the events of the contract in the transactions that
the search has found, in the order of the chain. -/
theorem inventory_commits_events {document : TxSearchDocument} {chainId contract : Bytes}
    {cutoverHeight : UInt64} {evidence : Option BlockEvidence} {inventory : Inventory}
    (h : buildInventory env rt document chainId contract cutoverHeight evidence = .ok inventory) :
    ∃ pages, env.decodeTxSearch document.pages (env.trimSpace contract) cutoverHeight = .ok pages ∧
      inventory.eventCommitment = encodeHex (eventCommitment env
        ((rt.sort transactionLess pages.transactions).flatMap
          (contractEvents (env.trimSpace contract)))).1 := by
  simp only [buildInventory, bind_eq_ok, exists_unit, mapError_eq_ok, pure_eq_ok] at h
  obtain ⟨-, -, _, -, -, pages, hpages, -, _, -, -, s, hscan, rfl⟩ := h
  refine ⟨pages, hpages, ?_⟩
  show encodeHex s.builder.commitment.1 = _
  rw [scanTransactions_commitment hscan]

end Replay

namespace Sample

/-- A transaction hash. -/
def hash : Bytes := List.replicate 64 0x41

/-- An event with two attributes. -/
def plainEvent : ContractEvent :=
  .of ⟨hash, 7, 0, 0, []⟩ 1 (ascii "sponsor")
    ((∅ : Attributes).insert (ascii "owner") (ascii "bob") |>.insert (ascii "message") (ascii "hi"))

/-- An event with one attribute, whose value holds the text of the other one after a NUL byte. -/
def mergedEvent : ContractEvent :=
  .of ⟨hash, 7, 0, 0, []⟩ 1 (ascii "sponsor")
    ((∅ : Attributes).insert (ascii "message")
      (ascii "hi" ++ 0 :: ascii "owner" ++ 0 :: ascii "bob"))

/-- An event without attributes. -/
def bareEvent : ContractEvent := .of ⟨hash, 7, 0, 0, []⟩ 2 (ascii "migrate") ∅

/-- An environment whose digest keeps the length and the first bytes of a text. -/
def headEnv : Env where
  trimSpace := id
  toUpper := id
  sha256 := fun text => ⟨(1 :: UInt8.ofNat text.length :: text ++ List.replicate 32 0).take 32,
    by simp⟩

/-- The commitment does not tell whether a NUL byte stood in a value or after it. -/
theorem nul_merges_attributes :
    plainEvent ≠ mergedEvent ∧ plainEvent.canonical = mergedEvent.canonical ∧
      ∀ env, eventCommitment env [plainEvent] = eventCommitment env [mergedEvent] := by
  have hcanonical : plainEvent.canonical = mergedEvent.canonical := by decide +kernel
  refine ⟨fun h => ?_, hcanonical, fun env => ?_⟩
  · have howner := congrArg (fun e => e.attributes.lookup (ascii "owner")) h
    have hplain : plainEvent.attributes.lookup (ascii "owner") = some (ascii "bob") := by
      decide +kernel
    have hmerged : mergedEvent.attributes.lookup (ascii "owner") = none := by decide +kernel
    rw [hplain, hmerged] at howner
    cases howner
  · show commitStep env zeroDigest _ = commitStep env zeroDigest _
    rw [hcanonical]

/-- A history of an event without attributes is bound against every other one, a history of an event
with two attributes against those without NUL bytes. -/
theorem plain_histories_bound :
    CollisionFree headEnv (hashedTexts headEnv [plainEvent] ++ hashedTexts headEnv [bareEvent]) ∧
      (∀ other, CollisionFree headEnv (hashedTexts headEnv [bareEvent] ++ hashedTexts headEnv other) →
        eventCommitment headEnv [bareEvent] = eventCommitment headEnv other → [bareEvent] = other) ∧
      (eventCommitment headEnv [plainEvent] = eventCommitment headEnv [bareEvent] →
        [plainEvent] = [bareEvent]) := by
  have hsha : CollisionFree headEnv
      (hashedTexts headEnv [plainEvent] ++ hashedTexts headEnv [bareEvent]) :=
    ⟨by decide +kernel, by decide +kernel⟩
  have hsha_bare : CollisionFree headEnv (hashedTexts headEnv [bareEvent]) :=
    ⟨by decide +kernel, by decide +kernel⟩
  have hsha_plain : CollisionFree headEnv (hashedTexts headEnv [plainEvent]) :=
    ⟨by decide +kernel, by decide +kernel⟩
  have hbare : bareEvent.Unambiguous := ⟨rfl, by decide +kernel, by decide +kernel⟩
  have hfree : bareEvent.NulFree := ⟨by decide +kernel, by decide +kernel, by decide +kernel⟩
  have hplain : plainEvent.NulFree := ⟨by decide +kernel, by decide +kernel, by decide +kernel⟩
  refine ⟨hsha, (commitment_binds_iff hsha_bare).1.mpr (by simpa using hbare), ?_⟩
  exact (commitment_binds_iff hsha_plain).2 _ hsha (by simp [hfree, hplain])

end Sample

end Igit.Archive
