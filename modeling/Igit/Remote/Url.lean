import Igit.Chain.Bech32Roundtrip
import Igit.Chain.Rpc
import Igit.Library.Lines
import Igit.Migration.Schema

/-!
# Remote URLs

`ParseURL` and `ValidUsername` of `cli/internal/remote/url.go`, and `CanonicalURL` of
`cli/internal/chain`, which prints the URL of a repository. The parser drops a `.git` at the end of a
URL, and the core takes names that end in it: what is read back from a printed URL is the name without
that end (`parseURL_canonicalURL`), so that exactly the other names are read back as they are
(`parseURL_canonicalURL_iff`).
-/

namespace Igit.Remote

open Fallible
open Chain (trimFront encodeBech32Address injPrefix bech32Charset)
open Migration (ascii)

/-- `RepoURL`. -/
structure RepoURL where
  owner : Bytes
  repo : Bytes
  deriving DecidableEq, Repr

/-- The errors of `ParseURL`. -/
inductive UrlError where
  | invalidUrl (raw : Bytes)
  | invalidOwner (owner : Bytes)
  deriving DecidableEq, Repr

/-- `strings.TrimSuffix`. -/
def trimBack (back value : Bytes) : Bytes :=
  if back.isSuffixOf value then value.take (value.length - back.length) else value

/-- `strings.Trim` of slashes. -/
def trimSlashes (value : Bytes) : Bytes := (value.dropWhile (· == 0x2f)).rdropWhile (· == 0x2f)

/-- A rune of a username. -/
def isUsernameRune (c : Nat) : Bool :=
  (decide (0x61 ≤ c) && decide (c ≤ 0x7a)) || (decide (0x30 ≤ c) && decide (c ≤ 0x39)) || c == 0x2d

/-- `ValidUsername`. -/
def validUsername (name : Bytes) : Bool :=
  !(decide (name.length < 3) || decide (name.length > 32) || (ascii "-").isPrefixOf name ||
    (ascii "-").isSuffixOf name || (ascii "inj1").isPrefixOf name) &&
    (Runes.runes name).all fun rune => isUsernameRune rune.1

/-- The URL without its scheme. -/
def trimScheme (raw : Bytes) : Bytes :=
  if (ascii "igit://").isPrefixOf raw then trimFront (ascii "igit://") raw
  else trimFront (ascii "igit::") raw

/-- `ParseURL`. -/
def parseURL (raw : Bytes) : Except UrlError RepoURL :=
  match (trimBack (ascii ".git") (trimSlashes (trimScheme raw))).splitOn 0x2f with
  | [owner, repo] => do
      revertIf (owner = [] ∨ repo = []) (.invalidUrl raw)
      revertIf (¬ (ascii "inj1").isPrefixOf owner ∧ validUsername owner = false)
        (.invalidOwner owner)
      pure ⟨owner, repo⟩
  | _ => throw (.invalidUrl raw)

/-- `CanonicalURL`. -/
def canonicalURL (owner name : Bytes) : Bytes := ascii "igit://" ++ owner ++ 0x2f :: name

/-! ## Owners and names -/

/-- An Injective address: the bech32 text of twenty bytes. -/
def IsAddress (owner : Bytes) : Prop :=
  ∃ payload, payload.length = 20 ∧ owner = encodeBech32Address injPrefix payload

/-- An address or a username. -/
def IsOwner (owner : Bytes) : Prop := IsAddress owner ∨ validUsername owner = true

/-- The usernames of the client are those of the contract. -/
theorem validUsername_eq (name : Bytes) : validUsername name = Igit.validUsername name := by
  have hrunes : ((Runes.runes name).all fun rune => isUsernameRune rune.1) =
      name.all isUsernameByte := by
    refine (Runes.all_runes (fun n hn => ?_) name).trans ?_
    · simp only [isUsernameRune, Bool.or_eq_true, Bool.and_eq_true, decide_eq_true_eq,
        beq_iff_eq] at hn
      omega
    · congr 1
      funext c
      simp only [isUsernameRune, isUsernameByte, UInt8.le_iff_toNat_le]
      congr 1
      rw [Bool.eq_iff_iff, beq_iff_eq, beq_iff_eq]
      exact ⟨fun h => UInt8.toNat_inj.mp h, fun h => congrArg UInt8.toNat h⟩
  have hfirst : (ascii "-").isPrefixOf name = (name.head? == some 0x2d) := by
    rw [Bool.eq_iff_iff, List.isPrefixOf_iff_prefix, beq_iff_eq]
    exact List.singleton_prefix_iff_head?_eq_some
  have hlast : (ascii "-").isSuffixOf name = (name.getLast? == some 0x2d) := by
    rw [Bool.eq_iff_iff, List.isSuffixOf_iff_suffix, beq_iff_eq]
    exact List.singleton_suffix_iff_getLast?_eq_some
  have haddress : (ascii "inj1").isPrefixOf name = (name.take 4 == [0x69, 0x6e, 0x6a, 0x31]) := by
    rw [Bool.eq_iff_iff, List.isPrefixOf_iff_prefix, beq_iff_eq, List.prefix_iff_eq_take]
    exact eq_comm
  rw [validUsername, Igit.validUsername, hrunes, hfirst, hlast, haddress, maxUsernameLength]
  by_cases hshort : name.length < 3
  · simp [hshort, Nat.not_le.mpr hshort]
  by_cases hlong : name.length > 32
  · simp [hlong, Nat.not_le.mpr hlong]
  simp [hshort, hlong, Nat.not_lt.mp hshort, Nat.not_lt.mp hlong, bne, Bool.and_assoc]

/-- What the parser asks of an owner. -/
structure OwnerText (owner : Bytes) : Prop where
  ne_nil : owner ≠ []
  noSlash : 0x2f ∉ owner
  accepted : (ascii "inj1").isPrefixOf owner = true ∨ validUsername owner = true

/-- An address is accepted in the place of the owner. -/
theorem IsAddress.ownerText {owner : Bytes} (h : IsAddress owner) : OwnerText owner := by
  obtain ⟨payload, -, rfl⟩ := h
  obtain ⟨values, pad, hvalues, -, -, -⟩ := Chain.convertBits_pad payload
  have htext : encodeBech32Address injPrefix payload = ascii "inj1" ++
      (values ++ Chain.bech32Checksum injPrefix values).map fun value =>
        bech32Charset.getD value.toNat 0 := by
    unfold encodeBech32Address
    rw [hvalues]
    rfl
  have hcharset : ∀ i, bech32Charset.getD i 0 ≠ 0x2f := by
    intro i
    by_cases hlt : i < bech32Charset.length
    · have hall : ∀ c ∈ bech32Charset, c ≠ 0x2f := by decide +kernel
      rw [List.getD_eq_getElem _ _ hlt]
      exact hall _ (List.getElem_mem hlt)
    · rw [List.getD_eq_default _ _ (Nat.le_of_not_lt hlt)]
      decide
  rw [htext]
  refine ⟨by simp [ascii], fun hmem => ?_, Or.inl ?_⟩
  · rcases List.mem_append.mp hmem with hhrp | hdata
    · exact absurd hhrp (by decide +kernel)
    · obtain ⟨value, -, hvalue⟩ := List.mem_map.mp hdata
      exact hcharset value.toNat hvalue
  · exact List.isPrefixOf_iff_prefix.mpr (List.prefix_append _ _)

theorem ownerText_of_validUsername {owner : Bytes} (h : validUsername owner = true) :
    OwnerText owner := by
  have hcontract := h
  rw [validUsername_eq] at hcontract
  simp only [Igit.validUsername, Bool.and_eq_true, decide_eq_true_eq] at hcontract
  obtain ⟨⟨⟨⟨⟨hlength, -⟩, -⟩, -⟩, -⟩, hbytes⟩ := hcontract
  refine ⟨fun hnil => ?_, fun hmem => ?_, Or.inr h⟩
  · rw [hnil] at hlength
    exact absurd hlength (by decide)
  · exact absurd (List.all_eq_true.mp hbytes _ hmem) (by decide)

theorem IsOwner.ownerText {owner : Bytes} (h : IsOwner owner) : OwnerText owner :=
  h.elim IsAddress.ownerText ownerText_of_validUsername

/-- A valid name is not empty and has no slash. -/
theorem validRepositoryName_text {name : Bytes} (h : validRepositoryName name = true) :
    name ≠ [] ∧ 0x2f ∉ name := by
  simp only [validRepositoryName, Bool.and_eq_true, decide_eq_true_eq] at h
  obtain ⟨⟨hlength, -⟩, hbytes⟩ := h
  refine ⟨fun hnil => hlength (by rw [hnil]; rfl), fun hmem => ?_⟩
  exact absurd (List.all_eq_true.mp hbytes _ hmem) (by decide)

/-! ## Reading a printed URL -/

/-- An end without separators is one of the text after the last separator. -/
theorem suffix_append_cons_iff {α : Type} {sep : α} {back first rest : List α} (h : sep ∉ back) :
    back <:+ first ++ sep :: rest ↔ back <:+ rest := by
  have hrest : sep :: rest <:+ first ++ sep :: rest := List.suffix_append _ _
  refine ⟨fun hback => ?_, fun hback => hback.trans ((List.suffix_cons sep rest).trans hrest)⟩
  rcases List.suffix_or_suffix_of_suffix hback hrest with hinside | houtside
  · rcases List.suffix_cons_iff.mp hinside with heq | hsuffix
    · exact absurd (heq ▸ List.mem_cons_self) h
    · exact hsuffix
  · exact absurd (houtside.mem List.mem_cons_self) h

theorem trimBack_append (back value : Bytes) : trimBack back (value ++ back) = value := by
  rw [trimBack, if_pos (List.isSuffixOf_iff_suffix.mpr (List.suffix_append _ _)),
    List.length_append, Nat.add_sub_cancel, List.take_left]

theorem trimBack_of_not {back value : Bytes} (h : ¬ back <:+ value) : trimBack back value = value :=
  if_neg (mt List.isSuffixOf_iff_suffix.mp h)

/-- Only the name loses an end without slashes. -/
theorem trimBack_path {back owner name : Bytes} (h : 0x2f ∉ back) :
    trimBack back (owner ++ 0x2f :: name) = owner ++ 0x2f :: trimBack back name := by
  by_cases hback : back <:+ name
  · obtain ⟨base, rfl⟩ := hback
    rw [trimBack_append, ← List.cons_append, ← List.append_assoc, trimBack_append]
  · rw [trimBack_of_not hback, trimBack_of_not (mt (suffix_append_cons_iff h).mp hback)]

/-- Without its scheme a canonical URL is its owner and its name. -/
theorem trimScheme_canonicalURL (owner name : Bytes) :
    trimScheme (canonicalURL owner name) = owner ++ 0x2f :: name := by
  have hscheme : (ascii "igit://").isPrefixOf (canonicalURL owner name) = true := by
    rw [canonicalURL, List.append_assoc]
    exact List.isPrefixOf_iff_prefix.mpr (List.prefix_append _ _)
  rw [trimScheme, if_pos hscheme, trimFront, if_pos hscheme, canonicalURL, List.append_assoc]
  exact List.drop_left

/-- A path that neither starts nor ends with a slash. -/
theorem trimSlashes_path {owner name : Bytes} (howner : owner ≠ []) (hslash : 0x2f ∉ owner)
    (hname : name ≠ []) (hslash' : 0x2f ∉ name) :
    trimSlashes (owner ++ 0x2f :: name) = owner ++ 0x2f :: name := by
  have hfront : (owner ++ 0x2f :: name).dropWhile (· == 0x2f) = owner ++ 0x2f :: name := by
    cases owner with
    | nil => exact absurd rfl howner
    | cons c rest =>
        have hc : (c == 0x2f) = false := beq_false_of_ne fun heq => hslash (by simp [heq])
        rw [List.cons_append, List.dropWhile_cons_of_neg (by simp [hc])]
  rw [trimSlashes, hfront, List.rdropWhile_eq_self_iff]
  intro hne hlast
  have hend : (owner ++ 0x2f :: name).getLast hne = name.getLast hname := by
    rw [List.getLast_append_of_ne_nil _ (List.cons_ne_nil _ _), List.getLast_cons hname]
  rw [hend, beq_iff_eq] at hlast
  exact hslash' (hlast ▸ List.getLast_mem hname)

/-- A printed URL is read back with its owner, and with its name up to a `.git` at its end. -/
theorem parseURL_canonicalURL {owner name : Bytes} (howner : IsOwner owner)
    (hname : validRepositoryName name = true) :
    parseURL (canonicalURL owner name) =
      if trimBack (ascii ".git") name = [] then .error (.invalidUrl (canonicalURL owner name))
      else .ok ⟨owner, trimBack (ascii ".git") name⟩ := by
  obtain ⟨hne, hslash, haccepted⟩ := howner.ownerText
  obtain ⟨hne', hslash'⟩ := validRepositoryName_text hname
  have hrest : 0x2f ∉ trimBack (ascii ".git") name := by
    intro hmem
    unfold trimBack at hmem
    split at hmem
    · exact hslash' (List.mem_of_mem_take hmem)
    · exact hslash' hmem
  have hparts : (owner ++ 0x2f :: trimBack (ascii ".git") name).splitOn 0x2f =
      [owner, trimBack (ascii ".git") name] := by
    rw [splitOn_append_cons_sep, splitOn_of_notMem hslash, splitOn_of_notMem hrest]
    rfl
  rw [parseURL, trimScheme_canonicalURL, trimSlashes_path hne hslash hne' hslash',
    trimBack_path (by decide +kernel), hparts]
  dsimp only
  have howners : ¬ (¬ (ascii "inj1").isPrefixOf owner = true ∧ validUsername owner = false) := by
    rintro ⟨haddress, husername⟩
    rcases haccepted with h | h
    · exact haddress h
    · rw [h] at husername
      cases husername
  by_cases hempty : trimBack (ascii ".git") name = []
  · rw [if_pos hempty, hempty, revertIf, if_pos (Or.inr rfl)]
    rfl
  · rw [if_neg hempty, revertIf, if_neg (not_or.mpr ⟨hne, hempty⟩), revertIf, if_neg howners]
    rfl

/-- The URL of a repository is read back as it was printed exactly when its name does not end in
`.git`. -/
theorem parseURL_canonicalURL_iff {owner name : Bytes} (howner : IsOwner owner)
    (hname : validRepositoryName name = true) :
    parseURL (canonicalURL owner name) = .ok ⟨owner, name⟩ ↔ ¬ ascii ".git" <:+ name := by
  rw [parseURL_canonicalURL howner hname]
  refine ⟨fun h hback => ?_, fun hback => ?_⟩
  · obtain ⟨base, rfl⟩ := hback
    rw [trimBack_append] at h
    split at h
    · cases h
    · have hsame : base = base ++ ascii ".git" := congrArg RepoURL.repo (Except.ok.inj h)
      have hlength := congrArg List.length hsame
      rw [List.length_append] at hlength
      have hgit : (ascii ".git").length = 4 := by decide +kernel
      omega
  · rw [trimBack_of_not hback, if_neg (validRepositoryName_text hname).1]

namespace Sample

/-- The URL of a repository named `tools.git` addresses the repository `tools`, and that of one named
`.git` none. -/
theorem git_names_misread :
    validUsername (ascii "alice") = true ∧ validRepositoryName (ascii "tools.git") = true ∧
      validRepositoryName (ascii ".git") = true ∧
      parseURL (canonicalURL (ascii "alice") (ascii "tools.git")) =
        .ok ⟨ascii "alice", ascii "tools"⟩ ∧
      parseURL (canonicalURL (ascii "alice") (ascii ".git")) =
        .error (.invalidUrl (ascii "igit://alice/.git")) := by
  have howner : validUsername (ascii "alice") = true := by decide +kernel
  have htools : validRepositoryName (ascii "tools.git") = true := by decide +kernel
  have hgit : validRepositoryName (ascii ".git") = true := by decide +kernel
  refine ⟨howner, htools, hgit, ?_, ?_⟩
  · rw [parseURL_canonicalURL (Or.inr howner) htools]
    decide +kernel
  · rw [parseURL_canonicalURL (Or.inr howner) hgit]
    decide +kernel

/-- The URL of a repository named `tools` is read back. -/
theorem tools_read_back :
    validUsername (ascii "alice") = true ∧ validRepositoryName (ascii "tools") = true ∧
      parseURL (canonicalURL (ascii "alice") (ascii "tools")) =
        .ok ⟨ascii "alice", ascii "tools"⟩ := by
  have howner : validUsername (ascii "alice") = true := by decide +kernel
  have htools : validRepositoryName (ascii "tools") = true := by decide +kernel
  exact ⟨howner, htools, (parseURL_canonicalURL_iff (Or.inr howner) htools).mpr (by decide +kernel)⟩

end Sample

end Igit.Remote
