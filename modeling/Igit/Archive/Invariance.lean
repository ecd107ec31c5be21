import Igit.Archive.Commitment

/-!
# The inventory does not depend on the pages

A search may cut the transactions into pages in any way and give them in any order, Go visits its
maps in any order, and `sort.Slice` is not stable. None of this reaches the inventory
(`buildInventory_pages`): every transaction is checked on its own, a run that succeeds has found a
position of its own for each (`scanTransactions_positions`), so that the sorted list is fixed, and
every list of the inventory is sorted by keys that are distinct or determine the entry
(`Builder.inventory_runtime`).
-/

namespace Igit.Archive

open Fallible
open Migration (ascii bytesLess lessThen orders_bytes orders_number)

/-! ## The pages -/

section Pages

variable {env : Env}

/-- The transactions of the pages, in the order of the document. -/
def pageTransactions (pages : List TxSearchEnvelope) : List TxSearchTx :=
  pages.flatMap fun page => (page.result.map TxSearchResult.txs).getD []

/-- A page without an RPC error that has a given query, once it is trimmed, and a given count, once
it is parsed. -/
structure PageOf (env : Env) (query : Bytes) (totalCount : Option UInt64)
    (page : TxSearchEnvelope) : Prop where
  noError : env.hasJSONValue page.error = false
  result : ∃ result, page.result = some result ∧ env.trimSpace result.query = query ∧
    env.rawUint64 result.totalCount = totalCount

/-- A document of at least one page, whose pages have a given query and count. -/
structure TxSearchDocument.WellFormed (env : Env) (query : Bytes) (totalCount : Option UInt64)
    (document : TxSearchDocument) : Prop where
  pages_ne : document.pages ≠ []
  page : ∀ page ∈ document.pages, PageOf env query totalCount page

variable {query contract : Bytes} {totalCount : Option UInt64} {cutoverHeight : UInt64}

/-- What a page has to pass after a page with the same query and count. -/
theorem decodePage_eq_ok {page : TxSearchEnvelope} (hpage : PageOf env query totalCount page)
    {sofar next : Env.Pages} {index : Nat} :
    env.decodePage contract cutoverHeight sofar (page, index) = .ok next ↔
      query = expectedTxSearchQuery contract cutoverHeight ∧
      ∃ count, totalCount = some count ∧
        (index ≠ 0 → sofar.totalCount = count ∧ sofar.query = query) ∧
        ∃ transactions, (pageTransactions [page]).mapM env.decodeTx = .ok transactions ∧
          next = ⟨sofar.transactions ++ transactions, count, query⟩ := by
  obtain ⟨result, hresult, rfl, rfl⟩ := hpage.result
  have htxs : pageTransactions [page] = result.txs := by
    simp [pageTransactions, hresult]
  simp only [Env.decodePage, bind_eq_ok, exists_unit, revertIf_eq_ok, demand_eq_ok, pure_eq_ok,
    hpage.noError, hresult, htxs, Option.some.injEq, exists_eq_left', not_not]
  by_cases hindex : index = 0
  · simp [hindex, eq_comm]
  · simp only [hindex, if_false, not_false_eq_true, true_implies, Bool.false_eq_true, true_and,
      ne_eq]
    refine and_congr_right fun _ => exists_congr fun count => and_congr_right fun _ => ?_
    refine ⟨?_, ?_⟩
    · rintro ⟨hcount, hquery, transactions, htransactions, rfl⟩
      exact ⟨⟨hcount.symm, hquery.symm⟩, transactions, htransactions, by rw [hcount, hquery]⟩
    · rintro ⟨⟨hcount, hquery⟩, transactions, htransactions, rfl⟩
      exact ⟨hcount.symm, hquery.symm, transactions, htransactions, by rw [hcount, hquery]⟩

/-- The pages after the first one only add their transactions. -/
theorem foldlM_decodePage {pages : List TxSearchEnvelope} {count : UInt64} {next : Env.Pages}
    {transactions : List OrderedTx} {index : Nat}
    (hpages : ∀ page ∈ pages, PageOf env query totalCount page)
    (hquery : query = expectedTxSearchQuery contract cutoverHeight)
    (hcount : totalCount = some count) :
    (pages.zipIdx (index + 1)).foldlM (env.decodePage contract cutoverHeight)
        ⟨transactions, count, query⟩ = .ok next ↔
      ∃ more, (pageTransactions pages).mapM env.decodeTx = .ok more ∧
        next = ⟨transactions ++ more, count, query⟩ := by
  induction pages generalizing transactions index with
  | nil =>
      simp only [List.zipIdx_nil, List.foldlM_nil, pageTransactions, List.flatMap_nil,
        List.mapM_nil, pure_eq_ok, exists_eq_left', List.append_nil]
      exact eq_comm
  | cons page rest ih =>
      obtain ⟨hpage, hrest⟩ := List.forall_mem_cons.mp hpages
      have hsplit : pageTransactions (page :: rest) =
          pageTransactions [page] ++ pageTransactions rest := by
        simp [pageTransactions]
      simp only [List.zipIdx_cons, List.foldlM_cons, bind_eq_ok, decodePage_eq_ok hpage, hsplit,
        List.mapM_append, pure_eq_ok]
      refine ⟨?_, ?_⟩
      · rintro ⟨_, ⟨-, _, hcount', -, first, hfirst, rfl⟩, hlater⟩
        obtain rfl := Option.some.inj (hcount'.symm.trans hcount)
        obtain ⟨more, hmore, rfl⟩ := (ih hrest).mp hlater
        exact ⟨first ++ more, ⟨first, hfirst, more, hmore, rfl⟩, by rw [List.append_assoc]⟩
      · rintro ⟨_, ⟨first, hfirst, more, hmore, rfl⟩, rfl⟩
        refine ⟨_, ⟨hquery, count, hcount, fun _ => by simp, first, hfirst, rfl⟩, ?_⟩
        exact (ih hrest).mpr ⟨more, hmore, by rw [List.append_assoc]⟩

/-- A well-formed document is decoded exactly when the query is the expected one, the count is a
number and every transaction passes its own checks. -/
theorem decodeTxSearch_eq_ok {document : TxSearchDocument}
    (h : document.WellFormed env query totalCount) {pages : Env.Pages} :
    env.decodeTxSearch document.pages contract cutoverHeight = .ok pages ↔
      query = expectedTxSearchQuery contract cutoverHeight ∧
      ∃ count, totalCount = some count ∧
        ∃ transactions, (pageTransactions document.pages).mapM env.decodeTx = .ok transactions ∧
          pages = ⟨transactions, count, query⟩ := by
  obtain ⟨raw, documentPages⟩ := document
  cases documentPages with
  | nil => exact absurd rfl h.pages_ne
  | cons page rest =>
      obtain ⟨hpage, hrest⟩ := List.forall_mem_cons.mp h.page
      have hsplit : pageTransactions (page :: rest) =
          pageTransactions [page] ++ pageTransactions rest := by
        simp [pageTransactions]
      simp only [Env.decodeTxSearch, bind_eq_ok, exists_unit, revertIf_eq_ok, List.zipIdx_cons,
        List.foldlM_cons, decodePage_eq_ok hpage, hsplit, List.mapM_append, pure_eq_ok]
      refine ⟨?_, ?_⟩
      · rintro ⟨-, _, ⟨hquery, count, hcount, -, first, hfirst, rfl⟩, hlater⟩
        obtain ⟨more, hmore, rfl⟩ := (foldlM_decodePage hrest hquery hcount).mp hlater
        exact ⟨hquery, count, hcount, first ++ more, ⟨first, hfirst, more, hmore, rfl⟩, rfl⟩
      · rintro ⟨hquery, count, hcount, _, ⟨first, hfirst, more, hmore, rfl⟩, rfl⟩
        refine ⟨List.cons_ne_nil _ _, _,
          ⟨hquery, count, hcount, fun hzero => absurd rfl hzero, first, hfirst, rfl⟩, ?_⟩
        exact (foldlM_decodePage hrest hquery hcount).mpr ⟨more, hmore, rfl⟩

end Pages

/-! ## The order of the transactions -/

theorem orders_word : Orders (fun a b : UInt32 => decide (a < b)) UInt32.toNat fun _ => True where
  less_iff := fun _ _ => decide_eq_true_iff.trans UInt32.lt_iff_toNat_lt
  inj := fun _ _ h => UInt32.toNat_inj.mp h

/-- Transactions at positions of their own are sorted by distinct keys. -/
theorem keyed_transactions {transactions : List OrderedTx}
    (h : (transactions.map OrderedTx.position).Nodup) : Keyed transactionLess transactions := by
  have hposition : transactions.map OrderedTx.position =
      (transactions.map fun tx => (tx.height, tx.index, tx.hash)).map fun key =>
        decimal key.1.toNat ++ 0x2f :: decimal key.2.1.toNat := by
    rw [List.map_map]
    rfl
  rw [hposition] at h
  exact .intro (fun tx : OrderedTx => (tx.height, tx.index, tx.hash))
    (orders_number.lex (orders_word.lex orders_bytes)) rfl
    (fun _ _ => ⟨trivial, trivial, trivial⟩) h.of_map

section Scan

variable {env : Env} {rt rt' : Runtime MapLoop} {target : Target} {cutoverBlock : SourceBlock}
  {transactions : List OrderedTx} {s : Scan}

/-- A transaction that is let through takes a position that was free. -/
theorem scanTransaction_positions {before after : Scan} {tx : OrderedTx}
    (h : scanTransaction env rt target before tx = .ok after) :
    after.seenPosition.keys = tx.position :: before.seenPosition.keys := by
  simp only [scanTransaction, bind_eq_ok, exists_unit, revertIf_eq_ok] at h
  obtain ⟨-, hfree, -, block, -, -, -, h⟩ := h
  have hkeys : (before.seenPosition.insert tx.position tx.hash).keys =
      tx.position :: before.seenPosition.keys := by
    show (before.seenPosition.insert tx.position tx.hash).entries.keys = _
    rw [AList.entries_insert_of_notMem hfree]
    rfl
  split at h
  · rw [pure_eq_ok] at h
    rw [← h]
    exact hkeys
  · rw [bind_eq_ok] at h
    obtain ⟨b, -, h⟩ := h
    rw [pure_eq_ok] at h
    rw [← h]
    exact hkeys

/-- The transactions of a run that succeeds have distinct positions. -/
theorem scanTransactions_positions
    (h : scanTransactions env rt target cutoverBlock transactions = .ok s) :
    (transactions.map OrderedTx.position).Nodup := by
  simp only [scanTransactions, bind_eq_ok, exists_unit] at h
  obtain ⟨finish, hscan, -, -⟩ := h
  have hkeys := @foldlM_tracks _ _ _ _ (fun s : Scan => s.seenPosition.keys)
    (fun keys tx => tx.position :: keys) _ _ _ _
    (fun before tx after hround => scanTransaction_positions hround) hscan
  have hreverse : ∀ (items : List OrderedTx) (keys : List Bytes),
      items.foldl (fun keys tx => tx.position :: keys) keys =
        (items.map OrderedTx.position).reverse ++ keys := by
    intro items
    induction items with
    | nil => exact fun _ => rfl
    | cons tx rest ih =>
        intro keys
        rw [List.foldl_cons, ih, List.map_cons, List.reverse_cons, List.append_assoc]
        rfl
  rw [hreverse] at hkeys
  have hnodup := finish.seenPosition.keys_nodup
  rw [hkeys] at hnodup
  exact List.nodup_reverse.mp (List.Nodup.of_append_left hnodup)

/-- The replay does not depend on the order of the attributes. -/
theorem scanTransactions_runtime (rt rt' : Runtime MapLoop) :
    scanTransactions env rt target cutoverBlock transactions =
      scanTransactions env rt' target cutoverBlock transactions := by
  have hevent : ∀ tx sender, replayEvent env rt target tx sender =
      replayEvent env rt' target tx sender := by
    intro tx sender
    funext sofar event
    simp only [replayEvent, Builder.apply, canonicalEvent_eq]
  have htransaction : replayTransaction env rt target = replayTransaction env rt' target := by
    funext b tx
    simp only [replayTransaction, hevent]
  have hscan : scanTransaction env rt target = scanTransaction env rt' target := by
    funext s tx
    simp only [scanTransaction, htransaction]
  simp only [scanTransactions, hscan]

/-! ## The lists of an inventory -/

/-- Every repository of a builder is filed under its identity. -/
def Builder.Filed (b : Builder) : Prop :=
  ∀ entry ∈ b.repositories.entries, entry.2.identity = entry.1

theorem Builder.Filed.insert {b : Builder} (h : b.Filed) {identity : Bytes}
    {record : InventoryRepository} (hrecord : record.identity = identity) :
    ∀ entry ∈ (b.repositories.insert identity record).entries, entry.2.identity = entry.1 := by
  intro entry hentry
  rcases HashMap.mem_entries_insert hentry with rfl | hold
  · exact hrecord
  · exact h entry hold

/-- An event leaves the repositories filed. -/
theorem Builder.Filed.perform {b : Builder} (h : b.Filed) (blocks : HashMap UInt64 SourceBlock)
    (tx : OrderedTx) (eventIndex : Nat) (action sender : Bytes) (attributes : Attributes) :
    Returns (b.perform blocks tx eventIndex action sender attributes) Builder.Filed := by
  have hadd : ∀ forked, Returns (b.addRepository tx eventIndex attributes forked) Builder.Filed := by
    intro forked
    simp only [addRepository, returns_bind, returns_revertIf, returns_pure]
    intro _ _ _
    exact h.insert rfl
  have hmove : Returns (b.moveRepository attributes) Builder.Filed := by
    intro after hafter
    simp only [moveRepository, bind_eq_ok, exists_unit, demand_eq_ok, pure_eq_ok] at hafter
    obtain ⟨identity, -, -, record, hrecord, rfl⟩ := hafter
    have hidentity : record.identity = identity := h ⟨identity, record⟩
      (AList.mem_lookup_iff.mp hrecord)
    exact h.insert hidentity
  -- the other actions do not touch the repositories
  have hkept : ∀ x : Except EventFailure Builder,
      (Returns x fun after => after.repositories = b.repositories) → Returns x Builder.Filed := by
    intro x hx after hafter
    unfold Builder.Filed
    rw [hx after hafter]
    exact h
  unfold Builder.perform
  split
  · exact hadd false
  · exact hadd true
  · exact hmove
  all_goals
    refine hkept _ ?_
    simp [submitReport, followReport, addModeration, registerUsername, releaseUsername,
      awardBadge, registerRelease]

/-- A transaction leaves the repositories filed. -/
theorem scanTransaction_filed {before after : Scan} {tx : OrderedTx}
    (h : scanTransaction env rt target before tx = .ok after) (hbefore : before.builder.Filed) :
    after.builder.Filed := by
  simp only [scanTransaction, bind_eq_ok, exists_unit, revertIf_eq_ok] at h
  obtain ⟨-, -, -, block, -, -, -, h⟩ := h
  split at h
  · rw [pure_eq_ok] at h
    rw [← h]
    exact hbefore
  rw [bind_eq_ok] at h
  obtain ⟨b, hreplay, h⟩ := h
  rw [pure_eq_ok] at h
  simp only [replayTransaction, bind_eq_ok, exists_unit] at hreplay
  obtain ⟨finish, hevents, -, hb⟩ := hreplay
  rw [pure_eq_ok] at hb
  have hround : ∀ event ∈ tx.events.zipIdx, ∀ sofar next : Builder × Bool,
      replayEvent env rt target tx (transactionSender tx.events) sofar event = .ok next →
        sofar.1.Filed → next.1.Filed := by
    intro event _ sofar next hnext hsofar
    unfold replayEvent at hnext
    dsimp only at hnext
    split at hnext
    · rw [pure_eq_ok] at hnext
      exact hnext ▸ hsofar
    split at hnext
    · rw [pure_eq_ok] at hnext
      exact hnext ▸ hsofar
    rw [bind_eq_ok] at hnext
    obtain ⟨b, happly, hnext⟩ := hnext
    rw [mapError_eq_ok] at happly
    rw [pure_eq_ok] at hnext
    rw [← hnext]
    exact Builder.Filed.perform (b := sofar.1.commit env _) hsofar _ _ _ _ _ _ b happly
  rw [← h, ← hb]
  exact foldlM_preserves (P := fun sofar : Builder × Bool => sofar.1.Filed) hround hevents hbefore

/-- The repositories of a run that succeeds are filed. -/
theorem scanTransactions_filed
    (h : scanTransactions env rt target cutoverBlock transactions = .ok s) : s.builder.Filed := by
  simp only [scanTransactions, bind_eq_ok, exists_unit] at h
  obtain ⟨finish, hscan, -, hs⟩ := h
  rw [pure_eq_ok] at hs
  rw [← hs]
  refine foldlM_preserves (P := fun s : Scan => s.builder.Filed)
    (fun tx _ before after hround => scanTransaction_filed hround) hscan ?_
  intro entry hentry
  cases hentry

end Scan

variable (rt rt' : Runtime MapLoop)

/-- The sorted keys of two maps with the same keys are the same. -/
theorem sortedKeys_runtime (loop : MapLoop) {values values' : HashMap Bytes Unit}
    (h : ∀ key, key ∈ values ↔ key ∈ values') :
    sortedKeys rt loop values = sortedKeys rt' loop values' := by
  have hperm : values'.keys.Perm values.keys := by
    rw [List.perm_ext_iff_of_nodup values'.keys_nodup values.keys_nodup]
    exact fun key => (h key).symm
  refine rt.sort_unique_of_order rt' orders_bytes ?_
  exact (rt'.visit_perm loop _).trans (hperm.trans (rt.visit_perm loop _).symm)

/-- The owners of a list of repositories. -/
theorem mem_ownerSet {records : List InventoryRepository} {owners : HashMap Bytes Unit}
    {owner : Bytes} :
    owner ∈ records.foldl (fun owners record => owners.insert record.owner ()) owners ↔
      owner ∈ owners ∨ ∃ record ∈ records, record.owner = owner := by
  induction records generalizing owners with
  | nil => simp
  | cons record rest ih =>
      rw [List.foldl_cons, ih, AList.mem_insert]
      simp only [List.mem_cons, exists_eq_or_imp, eq_comm (a := owner)]
      tauto

theorem Builder.visitedRecords_perm (b : Builder) : (b.visitedRecords rt').Perm (b.visitedRecords rt) := by
  have haliases : ∀ entry : (_ : Bytes) × InventoryRepository,
      rt'.sort bytesLess entry.2.aliases = rt.sort bytesLess entry.2.aliases :=
    fun entry => rt'.sort_unique_of_order rt orders_bytes (.refl _)
  unfold Builder.visitedRecords
  simp only [haliases]
  exact ((rt'.visit_perm _ _).trans (rt.visit_perm _ _).symm).map _

theorem keyed_visitedRecords {b : Builder} (h : b.Filed) :
    Keyed repositoryLess (b.visitedRecords rt) := by
  have hidentity : ((b.visitedRecords rt).map InventoryRepository.identity).Nodup := by
    have hkeys : (b.visitedRecords rt).map InventoryRepository.identity =
        (rt.visit .repositories b.repositories.entries).map Sigma.fst := by
      rw [Builder.visitedRecords, List.map_map]
      exact List.map_congr_left fun entry hentry =>
        h entry ((rt.visit_perm _ _).mem_iff.mp hentry)
    rw [hkeys, ((rt.visit_perm _ _).map Sigma.fst).nodup_iff]
    exact b.repositories.keys_nodup
  have hkey : (b.visitedRecords rt).map InventoryRepository.identity =
      ((b.visitedRecords rt).map fun r => (r.owner, r.name, r.identity)).map fun key => key.2.2 := by
    rw [List.map_map]
    rfl
  rw [hkey] at hidentity
  exact .intro (fun r : InventoryRepository => (r.owner, r.name, r.identity))
    (orders_bytes.lex (orders_bytes.lex orders_bytes)) rfl
    (fun _ _ => ⟨trivial, trivial, trivial⟩) hidentity.of_map

theorem keyed_usernames (b : Builder) : Keyed (fun a b : InventoryUsername => bytesLess a.name b.name)
    ((rt.visit .usernames b.usernameByName.entries).map fun entry => ⟨entry.1, entry.2⟩) := by
  refine .intro InventoryUsername.name orders_bytes rfl (fun _ _ => trivial) ?_
  rw [List.map_map]
  show ((rt.visit .usernames b.usernameByName.entries).map Sigma.fst).Nodup
  rw [((rt.visit_perm _ _).map Sigma.fst).nodup_iff]
  exact b.usernameByName.keys_nodup

/-- The inventory of a builder whose repositories are filed is the same in every run. -/
theorem Builder.inventory_runtime {b : Builder} (h : b.Filed) (chainId contract : Bytes)
    (height : UInt64) :
    b.inventory rt chainId contract height = b.inventory rt' chainId contract height := by
  have hrecords := b.visitedRecords_perm rt rt'
  have hrepositories : rt.sort repositoryLess (b.visitedRecords rt) =
      rt'.sort repositoryLess (b.visitedRecords rt') :=
    rt.sort_unique rt' (keyed_visitedRecords rt h) hrecords
  have howners : sortedKeys rt .owners
        ((b.visitedRecords rt).foldl (fun owners record => owners.insert record.owner ()) ∅) =
      sortedKeys rt' .owners
        ((b.visitedRecords rt').foldl (fun owners record => owners.insert record.owner ()) ∅) := by
    refine sortedKeys_runtime rt rt' _ fun owner => ?_
    rw [mem_ownerSet, mem_ownerSet]
    simp only [hrecords.mem_iff]
  have hreports : rt.sort (fun a b => decide (a < b)) (rt.visit .reports b.reports.keys) =
      rt'.sort (fun a b => decide (a < b)) (rt'.visit .reports b.reports.keys) :=
    rt.sort_unique_of_order rt' orders_number
      ((rt'.visit_perm _ _).trans (rt.visit_perm _ _).symm)
  have husernames := rt.sort_unique rt' (keyed_usernames rt b)
    (((rt'.visit_perm .usernames b.usernameByName.entries).trans
      (rt.visit_perm .usernames _).symm).map fun entry => InventoryUsername.mk entry.1 entry.2)
  have hrecipients := sortedKeys_runtime rt rt' .recipients (fun key => Iff.refl (key ∈ b.recipients))
  have hreleases := sortedKeys_runtime rt rt' .releases (fun key => Iff.refl (key ∈ b.releases))
  simp only [Builder.inventory, hrepositories, howners, hreports, husernames, hrecipients, hreleases]

theorem inventoryBlocks_runtime (requiredBlocks : HashMap UInt64 SourceBlock) :
    inventoryBlocks rt requiredBlocks = inventoryBlocks rt' requiredBlocks := by
  have hheights : rt.sort (fun a b => decide (a < b)) (rt.visit .blocks requiredBlocks.keys) =
      rt'.sort (fun a b => decide (a < b)) (rt'.visit .blocks requiredBlocks.keys) :=
    rt.sort_unique_of_order rt' orders_number
      ((rt'.visit_perm _ _).trans (rt.visit_perm _ _).symm)
  simp only [inventoryBlocks, hheights]

/-! ## Two documents -/

/-- Two runs end alike: both fail, or they build inventories that differ in the source digest
alone. -/
inductive SameOutcome : Except Failure Inventory → Except Failure Inventory → Prop where
  | failed (cause cause' : Failure) : SameOutcome (.error cause) (.error cause')
  | built (inventory : Inventory) (sourceSha256 : Bytes) :
      SameOutcome (.ok inventory) (.ok { inventory with sourceSha256 })

variable {env : Env} {document document' : TxSearchDocument} {query : Bytes}
  {totalCount : Option UInt64}

/-- A document that is accepted in one run is accepted in every other one, in any order and with any
cut into pages. -/
theorem buildInventory_ok (h : document.WellFormed env query totalCount)
    (h' : document'.WellFormed env query totalCount)
    (hsame : (pageTransactions document'.pages).Perm (pageTransactions document.pages))
    {chainId contract : Bytes} {cutoverHeight : UInt64} {evidence : Option BlockEvidence}
    {inventory : Inventory}
    (hbuilt : buildInventory env rt document chainId contract cutoverHeight evidence =
      .ok inventory) :
    ∃ sourceSha256, buildInventory env rt' document' chainId contract cutoverHeight evidence =
      .ok { inventory with sourceSha256 } := by
  simp only [buildInventory, bind_eq_ok, exists_unit, revertIf_eq_ok, demand_eq_ok, mapError_eq_ok,
    decodeTxSearch_eq_ok h, decodeTxSearch_eq_ok h'] at hbuilt ⊢
  obtain ⟨harguments, hcontract, evidence, rfl, hevidence, _,
    ⟨hquery, count, hcount, transactions, htransactions, rfl⟩, hlength, cutoverBlock, hcutover,
    hchain, s, hscan, hinventory⟩ := hbuilt
  rw [pure_eq_ok] at hinventory
  obtain ⟨transactions', htransactions', hperm⟩ := mapM_perm htransactions hsame
  -- the positions are distinct, so that both runs replay one list
  have hpositions : (transactions.map OrderedTx.position).Nodup :=
    ((rt.sort_perm transactionLess transactions).map _).nodup_iff.mp
      (scanTransactions_positions hscan)
  have hsorted := rt.sort_unique rt' (keyed_transactions hpositions) hperm
  rw [hsorted, scanTransactions_runtime rt rt'] at hscan
  rw [← hperm.length_eq] at hlength
  refine ⟨encodeHex (env.sha256 document'.raw).1, harguments, hcontract, evidence, rfl, hevidence, _,
    ⟨hquery, count, hcount, transactions', htransactions', rfl⟩, hlength, cutoverBlock, hcutover,
    hchain, s, hscan, ?_⟩
  rw [pure_eq_ok, ← hinventory, inventoryBlocks_runtime rt rt',
    Builder.inventory_runtime rt rt' (scanTransactions_filed hscan)]

/-- Two well-formed documents with the same transactions, in any order and with any cut into pages,
give the same outcome against the same blocks, whatever each run leaves to chance. -/
theorem buildInventory_pages (h : document.WellFormed env query totalCount)
    (h' : document'.WellFormed env query totalCount)
    (hsame : (pageTransactions document'.pages).Perm (pageTransactions document.pages))
    (chainId contract : Bytes) (cutoverHeight : UInt64) (evidence : Option BlockEvidence) :
    SameOutcome (buildInventory env rt document chainId contract cutoverHeight evidence)
      (buildInventory env rt' document' chainId contract cutoverHeight evidence) := by
  cases hrun : buildInventory env rt document chainId contract cutoverHeight evidence with
  | ok inventory =>
      obtain ⟨sourceSha256, hrun'⟩ := buildInventory_ok rt rt' h h' hsame hrun
      rw [hrun']
      exact .built inventory sourceSha256
  | error cause =>
      cases hrun' : buildInventory env rt' document' chainId contract cutoverHeight evidence with
      | ok inventory =>
          obtain ⟨_, hok⟩ := buildInventory_ok rt' rt h' h hsame.symm hrun'
          rw [hrun] at hok
          cases hok
      | error cause' => exact .failed cause cause'

namespace Sample

/-- A transaction at height one that creates a repository. Its bytes are a single byte. -/
def creation (hash index tx repo : String) : TxSearchTx where
  hash := ascii hash ++ List.replicate (64 - (ascii hash).length) 0x30
  height := ascii "1"
  index := ascii index
  tx := ascii tx
  txResult := some ⟨some 0, [⟨ascii "message", [⟨ascii "sender", ascii "alice"⟩]⟩,
    ⟨ascii "wasm", [⟨ascii "_contract_address", ascii "registry"⟩,
      ⟨ascii "action", ascii "create_repo"⟩, ⟨ascii "owner", ascii "alice"⟩,
      ⟨ascii "repo", ascii repo⟩]⟩]⟩

def firstCreation : TxSearchTx := creation "0101" "0" "AA==" "tools"
def secondCreation : TxSearchTx := creation "010101" "\"1\"" "AQ==" "docs"

def searchQuery : Bytes := ascii "wasm._contract_address='registry' AND tx.height<=1"

/-- A page of a search that finds two transactions. -/
def page (txs : List TxSearchTx) : TxSearchEnvelope := ⟨[], some ⟨searchQuery, ascii "2", txs⟩⟩

def onePage : TxSearchDocument := ⟨ascii "one", [page [firstCreation, secondCreation]]⟩
def twoPages : TxSearchDocument := ⟨ascii "two", [page [secondCreation], page [firstCreation]]⟩

/-- The block of both transactions. -/
def evidence : BlockEvidence where
  sha256 := ascii "digest"
  blocks := AList.singleton 1
    ⟨ascii "chain", 1, ascii "block", 100, [firstCreation.hash, secondCreation.hash]⟩

/-- Two transactions on one page, and on two pages in the other order. -/
theorem two_pages_agree :
    (buildInventory headEnv (.plain _) onePage (ascii "chain") (ascii "registry") 1
        (some evidence)).isOk = true ∧
      SameOutcome
        (buildInventory headEnv (.plain _) onePage (ascii "chain") (ascii "registry") 1
          (some evidence))
        (buildInventory headEnv (.plain _) twoPages (ascii "chain") (ascii "registry") 1
          (some evidence)) := by
  have hpage : ∀ txs, PageOf headEnv (headEnv.trimSpace searchQuery) (headEnv.rawUint64 (ascii "2")) (page txs) :=
    fun txs => ⟨rfl, _, rfl, rfl, rfl⟩
  have hone : onePage.WellFormed headEnv (headEnv.trimSpace searchQuery)
      (headEnv.rawUint64 (ascii "2")) :=
    ⟨List.cons_ne_nil _ _, by
      intro p hp
      rw [List.mem_singleton.mp hp]
      exact hpage _⟩
  have htwo : twoPages.WellFormed headEnv (headEnv.trimSpace searchQuery)
      (headEnv.rawUint64 (ascii "2")) :=
    ⟨List.cons_ne_nil _ _, by
      intro p hp
      rcases List.mem_cons.mp hp with rfl | hp
      · exact hpage _
      · rw [List.mem_singleton.mp hp]
        exact hpage _⟩
  exact ⟨by decide +kernel, buildInventory_pages _ _ hone htwo (List.Perm.swap _ _ []) _ _ _ _⟩

/-- The inventory of the page commits to its two creations. -/
theorem creations_committed :
    ∃ inventory pages, buildInventory headEnv (.plain _) onePage (ascii "chain") (ascii "registry") 1
        (some evidence) = .ok inventory ∧
      headEnv.decodeTxSearch onePage.pages (ascii "registry") 1 = .ok pages ∧
      inventory.eventCommitment = encodeHex (eventCommitment headEnv
        (((Runtime.plain MapLoop).sort transactionLess pages.transactions).flatMap
          (contractEvents (ascii "registry")))).1 := by
  have hok : (buildInventory headEnv (.plain _) onePage (ascii "chain") (ascii "registry") 1
      (some evidence)).isOk = true := by
    decide +kernel
  cases hbuild : buildInventory headEnv (.plain _) onePage (ascii "chain") (ascii "registry") 1
      (some evidence) with
  | error reason =>
      rw [hbuild] at hok
      cases hok
  | ok inventory =>
      obtain ⟨pages, hpages, hcommitment⟩ := inventory_commits_events hbuild
      exact ⟨inventory, pages, rfl, hpages, hcommitment⟩

end Sample

end Igit.Archive
