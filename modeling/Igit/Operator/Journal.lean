import Igit.Contracts.World
import Igit.Library.Lines

/-!
# The operator's journal

`OpenJournal` and `Append` of `cli/cmd/igit-suite-operator/journal.go`. The journal is a file with
one JSON text a line. `Append` writes lines of any length. `OpenJournal` reads them with a
`bufio.Scanner`, whose buffer ends at 64 KiB, so that a line has to fit it with its newline. What is
not said here about the file system (a file that cannot be opened) is not in question: a file is its
bytes, and there is none before the first entry.
-/

namespace Igit.Operator

open Fallible

/-- `time.Time`. -/
structure Timestamp where
  unix : Int
  nanoseconds : Nat
  offset : Int
  deriving DecidableEq, Repr

/-- `JournalEntry`. -/
structure JournalEntry where
  timestamp : Timestamp
  batchIndex : Int
  callData : Bytes
  gasEstimate : UInt64
  gasPrice : UInt64
  txHash : Bytes
  status : Bytes
  blockNumber : UInt64
  gasUsed : UInt64
  error : Bytes
  signature : Bytes
  deriving DecidableEq, Repr

/-- The map that is signed. -/
structure EntryData where
  timestamp : Int
  batchIndex : Int
  callData : Bytes
  gasEstimate : UInt64
  gasPrice : UInt64
  status : Bytes
  txHash : Option Bytes
  blockNumber : Option UInt64
  gasUsed : Option UInt64
  error : Option Bytes
  deriving DecidableEq, Repr

/-- What is signed of an entry: optional fields only where they are present. -/
def JournalEntry.data (entry : JournalEntry) : EntryData where
  timestamp := entry.timestamp.unix
  batchIndex := entry.batchIndex
  callData := entry.callData
  gasEstimate := entry.gasEstimate
  gasPrice := entry.gasPrice
  status := entry.status
  txHash := if entry.txHash ≠ [] then some entry.txHash else none
  blockNumber := if entry.blockNumber > 0 then some entry.blockNumber else none
  gasUsed := if entry.gasUsed > 0 then some entry.gasUsed else none
  error := if entry.error ≠ [] then some entry.error else none

def newline : UInt8 := 0x0a

/-- `encoding/json` on the types of the journal. A JSON text is one line and ends in a brace. -/
structure JournalFormat where
  marshal : JournalEntry → Option Bytes
  unmarshal : Bytes → Option JournalEntry
  marshalData : EntryData → Option Bytes
  unmarshal_marshal : ∀ {entry line}, marshal entry = some line → unmarshal line = some entry
  newline_free : ∀ {entry line}, marshal entry = some line → newline ∉ line
  last_ne_return : ∀ {entry line}, marshal entry = some line → line.getLast? ≠ some 0x0d

/-- The errors of the journal. -/
inductive JournalError where
  | parse (line : Nat)
  | read
  | marshalEntry
  | sign
  | marshalSigned
  | write
  | sync
  deriving DecidableEq, Repr

/-- `Journal`, with the bytes of its file. -/
structure Journal where
  file : Bytes
  entries : List JournalEntry
  deriving DecidableEq, Repr

/-- A journal without entries. -/
def Journal.fresh : Journal := ⟨[], []⟩

/-- `bufio.MaxScanTokenSize`. -/
def maxScanTokenSize : Nat := 64 * 1024

/-- What `bufio.ScanLines` takes off the end of a line. -/
def dropReturn (line : Bytes) : Bytes := if line.getLast? = some 0x0d then line.dropLast else line

/-- The loop of `OpenJournal` over the lines, from the one with number `lineNum` on. -/
def parseLines (format : JournalFormat) : Nat → List Bytes → Except JournalError (List JournalEntry)
  | _, [] => pure []
  | lineNum, line :: rest =>
      match format.unmarshal line with
      | none => throw (.parse lineNum)
      | some entry => do
          let entries ← parseLines format (lineNum + 1) rest
          pure (entry :: entries)

/-- `OpenJournal`, of a file that may not exist yet. -/
def openJournal (format : JournalFormat) : Option Bytes → Except JournalError Journal
  | none => pure .fresh
  | some text => do
      let scanned := scanLines newline maxScanTokenSize text
      let entries ← parseLines format 1 (scanned.1.map dropReturn)
      revertIf (scanned.2 = false) .read
      pure ⟨text, entries⟩

/-- A call of `Append`: the entry, the signature of the private key over the hash of a text, and how
the file takes the line: wholly, or only some bytes of it. -/
structure AppendCall where
  entry : JournalEntry
  sign : Bytes → Option Bytes
  shortWrite : Option Nat
  synced : Bool

/-- `Append`: the journal after it, and the error it returns. -/
def Journal.append (format : JournalFormat) (journal : Journal) (call : AppendCall) :
    Journal × Option JournalError :=
  match format.marshalData call.entry.data with
  | none => (journal, some .marshalEntry)
  | some data =>
      match call.sign data with
      | none => (journal, some .sign)
      | some signature =>
          match format.marshal { call.entry with signature := signature } with
          | none => (journal, some .marshalSigned)
          | some line =>
              match call.shortWrite with
              | some count =>
                  (⟨journal.file ++ (line ++ [newline]).take count, journal.entries⟩, some .write)
              | none =>
                  if call.synced then
                    (⟨journal.file ++ (line ++ [newline]),
                      journal.entries ++ [{ call.entry with signature := signature }]⟩, none)
                  else (⟨journal.file ++ (line ++ [newline]), journal.entries⟩, some .sync)

/-- A call that `Append` accepts. -/
def Accepts (format : JournalFormat) (journal : Journal) (call : AppendCall) : Prop :=
  (journal.append format call).2 = none

/-- The journal after a sequence of calls. -/
def Journal.appendAll (format : JournalFormat) (journal : Journal) (calls : List AppendCall) :
    Journal :=
  calls.foldl (fun journal call => (journal.append format call).1) journal

/-- Every call of a sequence is accepted. -/
def AllAccepted (format : JournalFormat) (journal : Journal) (calls : List AppendCall) : Prop :=
  Along (Accepts format) (fun journal call => (journal.append format call).1) journal calls

/-- An entry before it is signed. -/
def JournalEntry.unsigned (entry : JournalEntry) : JournalEntry := { entry with signature := [] }

/-! ## Steps -/

variable {format : JournalFormat} {journal : Journal} {call : AppendCall} {calls : List AppendCall}

/-- An accepted call adds one line and one entry. -/
theorem append_accepted (h : Accepts format journal call) :
    ∃ signature line, format.marshal { call.entry with signature := signature } = some line ∧
      (journal.append format call).1 = ⟨journal.file ++ (line ++ [newline]),
        journal.entries ++ [{ call.entry with signature := signature }]⟩ := by
  unfold Accepts Journal.append at h
  unfold Journal.append
  cases hdata : format.marshalData call.entry.data with
  | none =>
      rw [hdata] at h
      cases h
  | some data =>
      rw [hdata] at h
      dsimp only at h ⊢
      cases hsign : call.sign data with
      | none =>
          rw [hsign] at h
          cases h
      | some signature =>
          rw [hsign] at h
          dsimp only at h ⊢
          cases hline : format.marshal { call.entry with signature := signature } with
          | none =>
              rw [hline] at h
              cases h
          | some line =>
              rw [hline] at h
              dsimp only at h ⊢
              cases hwrite : call.shortWrite with
              | some count =>
                  rw [hwrite] at h
                  cases h
              | none =>
                  rw [hwrite] at h
                  dsimp only at h ⊢
                  by_cases hsync : call.synced = true
                  · rw [if_pos hsync]
                    exact ⟨signature, line, hline, rfl⟩
                  · rw [if_neg hsync] at h
                    cases h

/-- The file holds the lines of the entries. -/
def Journal.Written (format : JournalFormat) (journal : Journal) (lines : List Bytes) : Prop :=
  journal.file = terminated newline lines ∧
    List.Forall₂ (fun entry line => format.marshal entry = some line) journal.entries lines

/-- After accepted calls the file holds the lines of the entries, which are those of the calls. -/
theorem written_appendAll {lines : List Bytes} (hwritten : journal.Written format lines)
    (h : AllAccepted format journal calls) :
    (∃ more, (journal.appendAll format calls).Written format more) ∧
      (journal.appendAll format calls).entries.map JournalEntry.unsigned =
        journal.entries.map JournalEntry.unsigned ++
          calls.map fun call => call.entry.unsigned := by
  induction calls generalizing journal lines with
  | nil => exact ⟨⟨lines, hwritten⟩, (List.append_nil _).symm⟩
  | cons call rest ih =>
      obtain ⟨haccepts, hrest⟩ := h
      obtain ⟨signature, line, hline, hnext⟩ := append_accepted haccepts
      dsimp only at hrest
      rw [hnext] at hrest
      have hstep : Journal.Written format ⟨journal.file ++ (line ++ [newline]),
          journal.entries ++ [{ call.entry with signature := signature }]⟩ (lines ++ [line]) := by
        obtain ⟨hfile, hentries⟩ := hwritten
        refine ⟨?_, List.rel_append hentries (.cons hline .nil)⟩
        have hone : terminated newline [line] = line ++ [newline] := List.append_nil _
        rw [terminated_append, ← hfile, hone]
      obtain ⟨hmore, hunsigned⟩ := ih hstep hrest
      unfold Journal.appendAll at hmore hunsigned ⊢
      rw [List.foldl_cons, hnext]
      refine ⟨hmore, ?_⟩
      rw [hunsigned, List.map_append, List.append_assoc]
      rfl

/-! ## Reading back -/

theorem dropReturn_of_marshal {entry : JournalEntry} {line : Bytes}
    (h : format.marshal entry = some line) : dropReturn line = line :=
  if_neg (format.last_ne_return h)

/-- Lines of entries are parsed to the entries. -/
theorem parseLines_written {entries : List JournalEntry} {lines : List Bytes}
    (h : List.Forall₂ (fun entry line => format.marshal entry = some line) entries lines)
    (lineNum : Nat) : parseLines format lineNum (lines.map dropReturn) = .ok entries := by
  induction h generalizing lineNum with
  | nil => rfl
  | cons hline _ ih =>
      rw [List.map_cons, dropReturn_of_marshal hline, parseLines, format.unmarshal_marshal hline]
      dsimp only
      rw [ih]
      rfl

/-- Every line is that of an entry. -/
theorem exists_entry {entries : List JournalEntry} {lines : List Bytes}
    (h : List.Forall₂ (fun entry line => format.marshal entry = some line) entries lines) :
    ∀ line ∈ lines, ∃ entry ∈ entries, format.marshal entry = some line := by
  induction h with
  | nil => simp
  | cons hline _ ih =>
      refine List.forall_mem_cons.mpr ⟨⟨_, List.mem_cons_self, hline⟩, fun line hin => ?_⟩
      obtain ⟨entry, hentry, hmarshal⟩ := ih line hin
      exact ⟨entry, List.mem_cons_of_mem _ hentry, hmarshal⟩

/-- Every entry has a line. -/
theorem exists_line {entries : List JournalEntry} {lines : List Bytes}
    (h : List.Forall₂ (fun entry line => format.marshal entry = some line) entries lines) :
    ∀ entry ∈ entries, ∃ line ∈ lines, format.marshal entry = some line := by
  induction h with
  | nil => simp
  | cons hline _ ih =>
      refine List.forall_mem_cons.mpr ⟨⟨_, List.mem_cons_self, hline⟩, fun entry hin => ?_⟩
      obtain ⟨line, hmem, hmarshal⟩ := ih entry hin
      exact ⟨line, List.mem_cons_of_mem _ hmem, hmarshal⟩

/-- The scanner gets through a written journal exactly when every line fits its buffer, and then
finds the lines. -/
theorem scanLines_written {lines : List Bytes} (h : journal.Written format lines) :
    ((scanLines newline maxScanTokenSize journal.file).2 = true ↔
        ∀ line ∈ lines, line.length < maxScanTokenSize) ∧
      ((∀ line ∈ lines, line.length < maxScanTokenSize) →
        (scanLines newline maxScanTokenSize journal.file).1 = lines) := by
  obtain ⟨hfile, hentries⟩ := h
  have hfree : ∀ line ∈ lines, newline ∉ line := by
    intro line hline
    obtain ⟨entry, -, hmarshal⟩ := exists_entry hentries line hline
    exact format.newline_free hmarshal
  rw [hfile]
  exact @scanLines_terminated _ _ newline maxScanTokenSize (by decide) _ hfree

/-- A file that opens was scanned to its end. -/
theorem scanned_of_openJournal {text : Bytes} {opened : Journal}
    (h : openJournal format (some text) = .ok opened) :
    (scanLines newline maxScanTokenSize text).2 = true := by
  unfold openJournal at h
  obtain ⟨_, -, h⟩ := bind_eq_ok.mp h
  obtain ⟨_, hread, -⟩ := bind_eq_ok.mp h
  exact Bool.not_eq_false _ ▸ revertIf_eq_ok.mp hread

/-- A written journal opens as it is exactly when every line fits the buffer of the scanner. -/
theorem openJournal_written {lines : List Bytes} (h : journal.Written format lines) :
    openJournal format (some journal.file) = .ok journal ↔
      ∀ line ∈ lines, line.length < maxScanTokenSize := by
  obtain ⟨hend, hlines⟩ := scanLines_written h
  constructor
  · intro hopen
    exact hend.mp (scanned_of_openJournal hopen)
  · intro hfits
    unfold openJournal
    dsimp only
    rw [hlines hfits, parseLines_written h.2]
    refine bind_eq_ok.mpr ⟨journal.entries, rfl, bind_eq_ok.mpr ⟨(), ?_, rfl⟩⟩
    exact revertIf_eq_ok.mpr (Bool.not_eq_false _ ▸ hend.mpr hfits)

/-- The line of an entry fits the buffer of the scanner. -/
def JournalEntry.Fits (format : JournalFormat) (entry : JournalEntry) : Prop :=
  ∀ line, format.marshal entry = some line → line.length < maxScanTokenSize

/-- After any sequence of accepted calls the journal holds their entries in order, and opening its
file again gives it back exactly when the line of every entry is shorter than 64 KiB. -/
theorem reopens_iff (format : JournalFormat) (calls : List AppendCall)
    (h : AllAccepted format .fresh calls) :
    (Journal.fresh.appendAll format calls).entries.map JournalEntry.unsigned =
        calls.map (fun call => call.entry.unsigned) ∧
      (openJournal format (some (Journal.fresh.appendAll format calls).file) =
          .ok (Journal.fresh.appendAll format calls) ↔
        ∀ entry ∈ (Journal.fresh.appendAll format calls).entries, entry.Fits format) := by
  have hfresh : Journal.fresh.Written format [] := ⟨rfl, .nil⟩
  obtain ⟨⟨lines, hwritten⟩, hentries⟩ := written_appendAll hfresh h
  refine ⟨hentries, (openJournal_written hwritten).trans ⟨fun hfits entry hentry line hline => ?_,
    fun hfits line hline => ?_⟩⟩
  · obtain ⟨other, hother, hmarshal⟩ := exists_line hwritten.2 entry hentry
    cases hline.symm.trans hmarshal
    exact hfits _ hother
  · obtain ⟨entry, hentry, hmarshal⟩ := exists_entry hwritten.2 line hline
    exact hfits entry hentry line hmarshal

namespace Sample

open Codec

/-- Two letters for a byte. -/
def letters (bytes : Bytes) : Bytes := bytes.flatMap fun c => [0x61 + c / 16, 0x61 + c % 16]

/-- The bytes of pairs of letters. -/
def unletters : Bytes → Bytes
  | high :: low :: rest => ((high - 0x61) * 16 + (low - 0x61)) :: unletters rest
  | _ => []

theorem unletters_letters (bytes : Bytes) : unletters (letters bytes) = bytes := by
  have hbyte : ∀ c : UInt8, (0x61 + c / 16 - 0x61) * 16 + (0x61 + c % 16 - 0x61) = c := by
    decide +kernel
  induction bytes with
  | nil => rfl
  | cons c rest ih =>
      show ((0x61 + c / 16 - 0x61) * 16 + (0x61 + c % 16 - 0x61)) :: unletters (letters rest) =
        c :: rest
      rw [hbyte, ih]

theorem letters_range (bytes : Bytes) : ∀ c ∈ letters bytes, 0x61 ≤ c := by
  have hbyte : ∀ c : UInt8, 0x61 ≤ 0x61 + c / 16 ∧ 0x61 ≤ 0x61 + c % 16 := by decide +kernel
  intro c hc
  obtain ⟨b, -, hin⟩ := List.mem_flatMap.mp hc
  rcases List.mem_cons.mp hin with rfl | hlow
  · exact (hbyte b).1
  · obtain rfl := List.mem_singleton.mp hlow
    exact (hbyte b).2

theorem length_letters (bytes : Bytes) : (letters bytes).length = 2 * bytes.length := by
  induction bytes with
  | nil => rfl
  | cons c rest ih =>
      show (letters rest).length + 1 + 1 = 2 * (rest.length + 1)
      omega

def integer : Codec Int :=
  nat.map Equiv.intEquivNat.symm Equiv.intEquivNat Equiv.intEquivNat.symm_apply_apply

def uint64 : Codec UInt64 := (word 64).map UInt64.ofBitVec UInt64.toBitVec fun _ => rfl

def timestamp : Codec Timestamp :=
  (integer.pair (nat.pair integer)).map (fun p => ⟨p.1, p.2.1, p.2.2⟩)
    (fun t => (t.unix, t.nanoseconds, t.offset)) fun _ => rfl

def journalEntry : Codec JournalEntry :=
  (bytes.pair (timestamp.pair (integer.pair (uint64.pair (uint64.pair (bytes.pair (bytes.pair
    (uint64.pair (uint64.pair (bytes.pair bytes)))))))))).map
    (fun p => ⟨p.2.1, p.2.2.1, p.1, p.2.2.2.1, p.2.2.2.2.1, p.2.2.2.2.2.1, p.2.2.2.2.2.2.1,
      p.2.2.2.2.2.2.2.1, p.2.2.2.2.2.2.2.2.1, p.2.2.2.2.2.2.2.2.2.1, p.2.2.2.2.2.2.2.2.2.2⟩)
    (fun e => (e.callData, e.timestamp, e.batchIndex, e.gasEstimate, e.gasPrice, e.txHash, e.status,
      e.blockNumber, e.gasUsed, e.error, e.signature)) fun _ => rfl

/-- A format of one line of letters an entry. -/
def letterFormat : JournalFormat where
  marshal := fun entry => some (letters (journalEntry.encode entry))
  unmarshal := fun line => journalEntry.read (unletters line)
  marshalData := fun data => some (bytes.encode data.callData)
  unmarshal_marshal := by
    intro entry line hline
    cases hline
    rw [unletters_letters, journalEntry.read_encode]
  newline_free := by
    intro entry line hline hin
    cases hline
    exact absurd (letters_range _ _ hin) (by decide)
  last_ne_return := by
    intro entry line hline hlast
    cases hline
    exact absurd (letters_range _ _ (List.mem_of_getLast? hlast)) (by decide)

/-- An entry for a call with the given data. -/
def entryOf (callData : Bytes) : JournalEntry :=
  ⟨⟨0, 0, 0⟩, 0, callData, 100, 1, [1], [2], 7, 90, [], []⟩

/-- A call whose entry is signed and written. -/
def callOf (callData : Bytes) : AppendCall := ⟨entryOf callData, fun _ => some [5], none, true⟩

/-- Two short entries are found again. -/
theorem short_reopens :
    AllAccepted letterFormat .fresh [callOf [1], callOf [2, 3]] ∧
      openJournal letterFormat
          (some (Journal.fresh.appendAll letterFormat [callOf [1], callOf [2, 3]]).file) =
        .ok (Journal.fresh.appendAll letterFormat [callOf [1], callOf [2, 3]]) := by
  have haccepted : AllAccepted letterFormat .fresh [callOf [1], callOf [2, 3]] := ⟨rfl, rfl, trivial⟩
  refine ⟨haccepted, (reopens_iff letterFormat _ haccepted).2.mpr ?_⟩
  intro entry hentry line hline
  cases hline
  rcases List.mem_cons.mp hentry with rfl | hentry
  · decide +kernel
  · obtain rfl := List.mem_singleton.mp hentry
    decide +kernel

/-- A line is at least as long as the call data in it. -/
theorem length_marshal {entry : JournalEntry} {line : Bytes}
    (h : letterFormat.marshal entry = some line) : entry.callData.length ≤ line.length := by
  have hbyte : ∀ c : UInt8, 1 ≤ (byte.encode c).length := by decide +kernel
  have hflat : ∀ data : Bytes, data.length ≤ (data.flatMap byte.encode).length := by
    intro data
    induction data with
    | nil => exact Nat.le_refl 0
    | cons c rest ih =>
        have := hbyte c
        rw [List.flatMap_cons, List.length_append, List.length_cons]
        omega
  cases h
  have hencode : (bytes.encode entry.callData).length ≤ (journalEntry.encode entry).length := by
    show _ ≤ (bytes.encode entry.callData ++ _).length
    rw [List.length_append]
    omega
  have hbytes : (bytes.encode entry.callData).length =
      (nat.encode entry.callData.length).length +
        (entry.callData.flatMap byte.encode).length := List.length_append
  have := hflat entry.callData
  rw [length_letters]
  omega

/-- The call data of an import of 96000 bytes, in hexadecimal: a selector, five words, the length of
the payload and the payload. -/
def importCallData : Bytes := [0x30, 0x78] ++ List.replicate (2 * (4 + 6 * 32 + 96000)) 0x30

/-- The entry of a full batch is accepted and the journal cannot be opened any more. -/
theorem full_batch_not_reopened :
    AllAccepted letterFormat .fresh [callOf importCallData] ∧
      ∀ opened, openJournal letterFormat
        (some (Journal.fresh.appendAll letterFormat [callOf importCallData]).file) ≠ .ok opened := by
  have haccepted : AllAccepted letterFormat .fresh [callOf importCallData] := ⟨rfl, trivial⟩
  refine ⟨haccepted, fun opened hopen => ?_⟩
  obtain ⟨⟨lines, hwritten⟩, -⟩ := written_appendAll ⟨rfl, .nil⟩ haccepted
  have hfits := (scanLines_written hwritten).1.mp (scanned_of_openJournal hopen)
  obtain ⟨line, hline, hmarshal⟩ := exists_line hwritten.2 _ List.mem_cons_self
  have hlong := length_marshal hmarshal
  have hdata : importCallData.length = 192394 := by
    rw [importCallData, List.length_append, List.length_replicate]
    rfl
  have hcall : ({ (callOf importCallData).entry with signature := [5] } : JournalEntry).callData =
      importCallData := rfl
  have := hfits line hline
  rw [maxScanTokenSize] at this
  rw [hcall, hdata] at hlong
  omega

end Sample

end Igit.Operator
