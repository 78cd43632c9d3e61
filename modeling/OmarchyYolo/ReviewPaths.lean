import OmarchyYolo.Lib.JsonRoundTrip
import OmarchyYolo.Sharding

/-!
# OmarchyYolo.ReviewPaths — is every changed path reviewed?

The review asks Git three times about a candidate: once for the changed paths,
and for each of these for its binary flag and its diff. The first answer leaves
out the sources of renames; the others read the path as a pathspec.

* `CandidateTrees`, `GitDiff` — the two trees, and what Git says of a part of
  their difference;
* `AnswersReview` — the review queries, where Git answers them;
* `review_evidence_complete_iff` — when every changed path is reviewed.
-/

namespace OmarchyYolo

open Py PyJson

/-! ## Labels -/

/-- A path as `os.fsdecode` gives it: undecodable bytes are low surrogates. -/
def FsDecoded (path : Str) : Prop := ∀ bits, PyChar.surrogate false bits ∉ path

theorem FsDecoded.pairFree {path : Str} (h : FsDecoded path) : PyJson.PairFree path := by
  induction path using PyJson.PairFree.induct with
  | case1 => trivial
  | case2 hi lo s => exact absurd List.mem_cons_self (h hi)
  | case3 c s hne ih =>
    rw [PyJson.PairFree]
    · exact ih fun bits hb => h bits (List.mem_cons_of_mem c hb)
    · exact hne

theorem colon_notMem_plain {path : Str} (h : isPlainPromptPath path = true) :
    PyChar.scalar ':' ∉ path := by
  intro hmem
  simp only [isPlainPromptPath, Bool.and_eq_true, List.all_eq_true] at h
  have hc := h.2 _ hmem
  revert hc
  decide

/-- `_display_path` names every path differently. -/
theorem displayPath_injective {p q : Str} (hp : FsDecoded p) (hq : FsDecoded q)
    (h : displayPath p = displayPath q) : p = q := by
  have hcolon : ∀ s : Str, PyChar.scalar ':' ∈ lit "json:" ++ dumpsStr .default s := fun s =>
    List.mem_append_left _ (by decide)
  rw [displayPath, displayPath] at h
  split_ifs at h with hplain hplain' hplain'
  · exact h
  · -- a plain label and an encoded one
    rw [Bool.and_eq_true] at hplain
    exact absurd (h ▸ hcolon q) (colon_notMem_plain hplain.1)
  · rw [Bool.and_eq_true] at hplain'
    exact absurd (h ▸ hcolon p) (colon_notMem_plain hplain'.1)
  · have hdumps := (List.cons.inj (List.append_cancel_left h)).2
    have hread := congrArg scanString hdumps
    rw [scanString_dumpsStr, scanString_dumpsStr] at hread
    have hsame := congrArg Prod.fst (Option.some.inj hread)
    rwa [readStr_eq fun _ => hp.pairFree, readStr_eq fun _ => hq.pairFree] at hsame

/-! ## The candidate and what Git says of it -/

/-- Two trees with entries at paths, and the paths at which they differ, in Git's order. -/
structure CandidateTrees (Entry : Type) where
  base : Str → Option Entry
  head : Str → Option Entry
  changed : List Str
  changed_iff : ∀ path, path ∈ changed ↔ base path ≠ head path
  decoded : ∀ path ∈ changed, FsDecoded path

/-- What `git diff` makes of the changed paths that its pathspec leaves; rename detection
looks at no other. -/
structure GitDiff where
  /-- The pathspec selects the path. -/
  pathspec : Str → Str → Bool
  /-- In the diff of these paths, the path is the source of a rename. -/
  renameSource : List Str → Str → Bool
  /-- `--numstat` counts no lines of the path. -/
  binary : List Str → Str → Bool
  /-- What `git diff`, `--raw` and `--summary` write for a listed path. -/
  patch : List Str → Str → Str
  raw : List Str → Str → Str
  summary : List Str → Str → Str

namespace GitDiff

variable (diff : GitDiff)

/-- The paths that are listed: a rename is listed under its destination. -/
def listed (paths : List Str) : List Str := paths.filter fun path => !diff.renameSource paths path

/-- The changed paths that a pathspec leaves. -/
def limited (changed : List Str) (spec : Str) : List Str := changed.filter (diff.pathspec spec)

/-- One kind of output, for the listed paths in order. -/
def output (write : List Str → Str → Str) (paths : List Str) : Str :=
  (diff.listed paths).flatMap (write paths)

end GitDiff

/-- The binary flag of the first record. -/
def firstBinary (diff : GitDiff) (paths : List Str) : Bool :=
  ((diff.listed paths).head?.map (diff.binary paths)).getD false

/-- Where Git answers a query of the review, it answers about these trees. -/
structure AnswersReview {Entry : Type} (trees : CandidateTrees Entry) (diff : GitDiff)
    (git : ReviewGit) : Prop where
  names : ∀ names, git.changedNames = .ok names → names = diff.listed trees.changed
  binary : ∀ spec flag, git.isBinaryChange spec = .ok flag →
    flag = firstBinary diff (diff.limited trees.changed spec)
  raw : ∀ spec text, git.rawMetadata spec = .ok text →
    text = diff.output diff.raw (diff.limited trees.changed spec)
  summary : ∀ spec text, git.summaryMetadata spec = .ok text →
    text = diff.output diff.summary (diff.limited trees.changed spec)
  patch : ∀ spec text, git.fileDiff spec = .ok text →
    text = diff.output diff.patch (diff.limited trees.changed spec)

/-! ## Evidence -/

section Evidence

variable {Entry : Type} (trees : CandidateTrees Entry) (diff : GitDiff)

/-- What is shown for a manifest entry: the patches, or the metadata, of the paths that
its name selects as a pathspec. -/
def shownText (path : Str) : Str :=
  let paths := diff.limited trees.changed path
  if firstBinary diff paths then
    lit "[Binary content review explicitly allowed; content is not interpreted. " ++
      lit "Review object hashes/modes/provenance metadata only.]\nRAW:\n" ++
      diff.output diff.raw paths ++ lit "\nSUMMARY:\n" ++ diff.output diff.summary paths
  else diff.output diff.patch paths

/-- The shards of a manifest entry hold what is shown for it, and the path itself is
among what is shown: by its patch where its own change is one of text. -/
structure EntryReviewed (chunks : List ReviewChunk) (path : Str) : Prop where
  shown : ∃ shards, shards <:+: chunks ∧ (∀ shard ∈ shards, shard.files = [displayPath path]) ∧
    Headed (displayPath path) shards.length 1 shards ∧
    stripHeaders (displayPath path) shards.length 1 shards =
      shardedText (displayPath path) (shownText trees diff path)
  own : path ∈ diff.listed (diff.limited trees.changed path)
  patched : diff.binary (diff.limited trees.changed path) path = false →
    firstBinary diff (diff.limited trees.changed path) = false

/-- Every path at which the trees differ is in the manifest, and the shards of every
manifest entry hold the diff of its own path. -/
structure EvidenceComplete (manifest : List Str) (chunks : List ReviewChunk) : Prop where
  represented : ∀ path, trees.base path ≠ trees.head path → displayPath path ∈ manifest
  reviewed : ∀ path ∈ diff.listed trees.changed, EntryReviewed trees diff chunks path

end Evidence

section Complete

variable {Entry : Type} {trees : CandidateTrees Entry} {diff : GitDiff} {git : ReviewGit}

theorem reviewedDiff_eq (hgit : AnswersReview trees diff git) {path text : Str}
    (h : reviewedDiff git path = .ok text) : text = shownText trees diff path := by
  simp only [reviewedDiff, bind_ok_iff] at h
  obtain ⟨flag, hflag, h⟩ := h
  rw [candidateDiff, hgit.binary path flag hflag] at h
  rw [shownText]
  split_ifs at h ⊢
  · simp only [binaryMetadata, bind_ok_iff] at h
    obtain ⟨raw, hraw, summary, hsummary, h⟩ := h
    cases h
    rw [hgit.raw path raw hraw, hgit.summary path summary hsummary]
  · exact hgit.patch path text h

/-- The shards of the entries, one after the other. -/
theorem shards_infix {chunkBytes : Nat} {files : List Str} {groups : List (List ReviewChunk)}
    (h : List.Forall₂ (Sharded git chunkBytes) files groups) {path : Str} (hpath : path ∈ files) :
    ∃ shards, shards <:+: groups.flatten ∧ Sharded git chunkBytes path shards := by
  induction h with
  | nil => exact absurd hpath List.not_mem_nil
  | @cons file shards files groups hfile _ ih =>
    rcases List.mem_cons.mp hpath with rfl | hpath
    · exact ⟨shards, (List.prefix_append _ _).isInfix, hfile⟩
    · obtain ⟨own, hinfix, hown⟩ := ih hpath
      exact ⟨own, hinfix.trans (List.suffix_append _ _).isInfix, hown⟩

/-- The flag is that of the first path listed. -/
theorem firstBinary_eq_false_iff {diff : GitDiff} {paths : List Str} :
    firstBinary diff paths = false ↔
      ∀ first, (diff.listed paths).head? = some first → diff.binary paths first = false := by
  unfold firstBinary
  cases (diff.listed paths).head? with
  | none =>
    constructor
    · intro _ first hfirst
      cases hfirst
    · exact fun _ => rfl
  | some first =>
    constructor
    · intro hflag other hother
      cases hother
      exact hflag
    · intro hall
      exact hall first rfl

/-- The review is complete if and only if no changed path is the source of a rename, and
every changed path, read as a pathspec, selects itself, not as the source of a rename, and
where its own change is one of text, no binary file before all others. -/
theorem review_evidence_complete_iff (hgit : AnswersReview trees diff git)
    {maxFiles chunkBytes : Nat}
    {allowBinary : Bool} (hbytes : AcceptedChunkBytes chunkBytes) {manifest : List Str}
    {chunks : List ReviewChunk}
    (h : buildReviewChunks git maxFiles chunkBytes allowBinary = .ok (manifest, chunks)) :
    EvidenceComplete trees diff manifest chunks ↔
      ∀ path ∈ trees.changed, diff.renameSource trees.changed path = false ∧
        diff.pathspec path path = true ∧
        diff.renameSource (diff.limited trees.changed path) path = false ∧
        (diff.binary (diff.limited trees.changed path) path = false →
          ∀ first, (diff.listed (diff.limited trees.changed path)).head? = some first →
            diff.binary (diff.limited trees.changed path) first = false) := by
  obtain ⟨files, hnames, rfl, -, -, hgroups⟩ := buildReviewChunks_sharded hbytes h
  obtain rfl := hgit.names files hnames
  -- complete evidence: each changed path is listed, selects itself, and has its own patch
  constructor
  · intro hcomplete path hpath
    -- the manifest names the path, and not another one with the same label
    have hlisted : path ∈ diff.listed trees.changed := by
      obtain ⟨file, hfile, hlabel⟩ := List.mem_map.mp
        (hcomplete.represented path ((trees.changed_iff path).mp hpath))
      have hdecoded := trees.decoded file (List.mem_filter.mp hfile).1
      rwa [displayPath_injective hdecoded (trees.decoded path hpath) hlabel] at hfile
    have hreviewed := hcomplete.reviewed path hlisted
    obtain ⟨hlimited, hsource⟩ := List.mem_filter.mp hreviewed.own
    have hselected := (List.mem_filter.mp hlimited).2
    have hnosource := (List.mem_filter.mp hlisted).2
    exact ⟨by simpa using hnosource, hselected, by simpa using hsource,
      fun htext => firstBinary_eq_false_iff.mp (hreviewed.patched htext)⟩
  -- conversely each path is in the manifest, and its shards hold its diff
  · intro hall
    have hlisted : ∀ path ∈ trees.changed, path ∈ diff.listed trees.changed := fun path hpath =>
      List.mem_filter.mpr ⟨hpath, by simpa using (hall path hpath).1⟩
    refine ⟨fun path hne => ?_, fun path hpath => ?_⟩
    · exact List.mem_map_of_mem (hlisted path ((trees.changed_iff path).mpr hne))
    · have hchanged := (List.mem_filter.mp hpath).1
      obtain ⟨-, hselected, hsource, hfirst⟩ := hall path hchanged
      obtain ⟨groups, hchunks, hsharded⟩ := hgroups (List.ne_nil_of_mem hpath)
      obtain ⟨shards, hinfix, hown⟩ := shards_infix hsharded hpath
      obtain ⟨text, htext, hstrip⟩ := hown.lossless
      rw [reviewedDiff_eq hgit htext] at hstrip
      constructor
      -- the shards of the path, its own entry, and its patch
      · exact ⟨shards, hchunks ▸ hinfix, hown.fileLocal, hown.headed, hstrip⟩
      · exact List.mem_filter.mpr
          ⟨List.mem_filter.mpr ⟨hchanged, hselected⟩, by simpa using hsource⟩
      · exact fun htext => firstBinary_eq_false_iff.mpr (hfirst htext)

/-! ## A renamed file -/

/-- A candidate that moves a file. -/
def renamedTrees : CandidateTrees Str where
  base path := if path = lit "a.txt" then some (lit "x") else none
  head path := if path = lit "b.txt" then some (lit "x") else none
  changed := [lit "a.txt", lit "b.txt"]
  changed_iff := by
    intro path
    by_cases ha : path = lit "a.txt"
    · subst ha
      decide
    · by_cases hb : path = lit "b.txt"
      · subst hb
        decide
      · simp [ha, hb]
  decoded := by
    intro path hpath bits hbits
    simp only [List.mem_cons, List.not_mem_nil, or_false] at hpath
    rcases hpath with rfl | rfl <;> exact absurd hbits (by simp [lit])

/-- Git, on files whose names are plain: a file that is gone is the source of the file
with the same content. -/
def plainDiff : GitDiff where
  pathspec spec path := spec == path
  renameSource paths path :=
    path == lit "a.txt" && (lit "b.txt") ∈ paths
  binary _ _ := false
  patch paths path :=
    if path = lit "b.txt" ∧ lit "a.txt" ∈ paths then lit "rename from a.txt\nrename to b.txt\n"
    else if path = lit "b.txt" then lit "new file\n+x\n" else lit "deleted file\n-x\n"
  raw _ path := path
  summary _ path := path

/-- The queries of the review, answered. -/
def answeringGit {Entry : Type} (trees : CandidateTrees Entry) (diff : GitDiff) : ReviewGit where
  changedNames := .ok (diff.listed trees.changed)
  isBinaryChange spec := .ok (firstBinary diff (diff.limited trees.changed spec))
  rawMetadata spec := .ok (diff.output diff.raw (diff.limited trees.changed spec))
  summaryMetadata spec := .ok (diff.output diff.summary (diff.limited trees.changed spec))
  fileDiff spec := .ok (diff.output diff.patch (diff.limited trees.changed spec))

theorem answeringGit_answers {Entry : Type} (trees : CandidateTrees Entry) (diff : GitDiff) :
    AnswersReview trees diff (answeringGit trees diff) where
  names _ h := (Except.ok.inj h).symm
  binary _ _ h := (Except.ok.inj h).symm
  raw _ _ h := (Except.ok.inj h).symm
  summary _ _ h := (Except.ok.inj h).symm
  patch _ _ h := (Except.ok.inj h).symm

/-- The review of the moved file does not mention where it was: its deletion is reviewed
nowhere, and what is shown for the new path is a new file. -/
theorem renamed_file_unreviewed :
    ∃ chunks, buildReviewChunks (answeringGit renamedTrees plainDiff) 512 60000 false =
        .ok ([lit "b.txt"], chunks) ∧
      shownText renamedTrees plainDiff (lit "b.txt") = lit "new file\n+x\n" ∧
      ¬ EvidenceComplete renamedTrees plainDiff [lit "b.txt"] chunks := by
  refine ⟨[⟨1, [lit "b.txt"], lit "\n===== FILE b.txt PART 1/1 =====\nnew file\n+x\n"⟩],
    by decide +kernel, by decide, fun hcomplete => ?_⟩
  have hlabel := hcomplete.represented (lit "a.txt") (by decide)
  revert hlabel
  decide

/-- A candidate that adds a file. -/
def addedTrees : CandidateTrees Str where
  base _ := none
  head path := if path = lit "b.txt" then some (lit "x") else none
  changed := [lit "b.txt"]
  changed_iff := by
    intro path
    by_cases hb : path = lit "b.txt"
    · subst hb
      decide
    · simp [hb]
  decoded := by
    intro path hpath bits hbits
    obtain rfl := List.mem_singleton.mp hpath
    exact absurd hbits (by simp [lit])

/-- The review of the added file is complete. -/
theorem review_evidence_complete_added :
    EvidenceComplete addedTrees plainDiff [lit "b.txt"]
      [⟨1, [lit "b.txt"], lit "\n===== FILE b.txt PART 1/1 =====\nnew file\n+x\n"⟩] := by
  have hbuild : buildReviewChunks (answeringGit addedTrees plainDiff) 512 60000 false =
      .ok ([lit "b.txt"],
        [⟨1, [lit "b.txt"], lit "\n===== FILE b.txt PART 1/1 =====\nnew file\n+x\n"⟩]) := by
    decide +kernel
  refine (review_evidence_complete_iff (answeringGit_answers _ _) ⟨by decide, by decide⟩
    hbuild).mpr fun path hpath => ?_
  obtain rfl := List.mem_singleton.mp hpath
  decide

end Complete

end OmarchyYolo
