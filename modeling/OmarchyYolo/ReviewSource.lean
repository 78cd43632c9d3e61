import OmarchyYolo.Util

/-!
# OmarchyYolo.ReviewSource — sharding the candidate

`buildReviewChunks` cuts the diff of every changed file into shards of at most
`chunkBytes` bytes. What Git answers is a parameter (`ReviewGit`): the changed
paths, and for each path the binary test and the texts of its queries, decoded
with `errors="replace"`.
-/

namespace OmarchyYolo

open Py PyJson

structure ReviewChunk where
  index : Nat
  files : List Str
  text : Str
deriving DecidableEq, Repr

/-- The answers of the review queries for one candidate. -/
structure ReviewGit where
  /-- `git diff --name-only -z`, the paths decoded by `os.fsdecode`. -/
  changedNames : Except Exn (List Str)
  /-- `_is_binary_change`. -/
  isBinaryChange : Str → Except Exn Bool
  /-- `git diff --raw --full-index`. -/
  rawMetadata : Str → Except Exn Str
  /-- `git diff --summary`. -/
  summaryMetadata : Str → Except Exn Str
  /-- `_file_diff`. -/
  fileDiff : Str → Except Exn Str

def maxTotalReviewDiffBytes : Nat := 32000000

/-! ## Labels -/

/-- `[A-Za-z0-9._/@+\-]`. -/
def isPlainPathChar : PyChar → Bool
  | .surrogate _ _ => false
  | .scalar c =>
    ('A' ≤ c && c ≤ 'Z') || ('a' ≤ c && c ≤ 'z') || ('0' ≤ c && c ≤ '9') || c == '.' || c == '_' ||
      c == '/' || c == '@' || c == '+' || c == '-'

/-- `_PLAIN_PROMPT_PATH_RE`: plain characters and inner blanks. -/
def isPlainPromptPath (path : Str) : Bool :=
  (path.head?.map isPlainPathChar).getD false && (path.getLast?.map isPlainPathChar).getD false &&
    path.all fun c => isPlainPathChar c || c == .scalar ' '

/-- `_display_path`. -/
def displayPath (path : Str) : Str :=
  if isPlainPromptPath path && !(lit "json:").isPrefixOf path then path
  else lit "json:" ++ dumpsStr .default path

/-! ## Splitting -/

/-- The line boundaries of `str.splitlines`, `\r\n` apart. -/
def isLineBreak : PyChar → Bool
  | .surrogate _ _ => false
  | .scalar c =>
    c == '\n' || c == '\r' || c == '\x0b' || c == '\x0c' || c == '\x1c' || c == '\x1d' ||
      c == '\x1e' || c == '\u0085' || c == '\u2028' || c == '\u2029'

/-- Put a character in front of the first line. -/
def consLine (c : PyChar) : List Str → List Str
  | [] => [[c]]
  | line :: lines => (c :: line) :: lines

/-- `text.splitlines(keepends=True)`. -/
def splitLines : Str → List Str
  | [] => []
  | .scalar '\r' :: .scalar '\n' :: text => [.scalar '\r', .scalar '\n'] :: splitLines text
  | c :: text =>
    if isLineBreak c then [c] :: splitLines text else consLine c (splitLines text)

/-- The fragments of an oversized line: the characters of `fragment` so far, in
reverse, and their bytes. -/
def splitLine (maxBytes : Nat) : Str → Str → Nat → List Str
  | [], [], _ => []
  | [], fragment, _ => [fragment.reverse]
  | c :: line, fragment, fragmentBytes =>
    if fragment ≠ [] ∧ maxBytes < fragmentBytes + byteSize c then
      fragment.reverse :: splitLine maxBytes line [c] (byteSize c)
    else splitLine maxBytes line (c :: fragment) (fragmentBytes + byteSize c)

/-- `flush()` of the lines collected in reverse. -/
def flush (current : List Str) : List Str :=
  if current = [] then [] else [current.reverse.flatten]

/-- The loop over the lines: the lines of `current` so far, in reverse, and their bytes. -/
def splitLoop (maxBytes : Nat) : List Str → List Str → Nat → List Str
  | [], current, _ => flush current
  | line :: lines, current, currentBytes =>
    if byteLen line ≤ maxBytes then
      if current ≠ [] ∧ maxBytes < currentBytes + byteLen line then
        flush current ++ splitLoop maxBytes lines [line] (byteLen line)
      else splitLoop maxBytes lines (line :: current) (currentBytes + byteLen line)
    else flush current ++ splitLine maxBytes line [] 0 ++ splitLoop maxBytes lines [] 0

/-- `_split_text`, for a positive bound. -/
def splitText (text : Str) (maxBytes : Nat) : List Str :=
  match splitLoop maxBytes (splitLines text) [] 0 with
  | [] => [[]]
  | pieces => pieces

/-! ## Shards -/

/-- `_binary_metadata`. -/
def binaryMetadata (git : ReviewGit) (path : Str) : Except Exn Str := do
  let raw ← git.rawMetadata path
  let summary ← git.summaryMetadata path
  return lit "[Binary content review explicitly allowed; content is not interpreted. " ++
    lit "Review object hashes/modes/provenance metadata only.]\nRAW:\n" ++ raw ++
    lit "\nSUMMARY:\n" ++ summary

/-- The text reviewed for a changed file. -/
def candidateDiff (git : ReviewGit) (path : Str) (binary : Bool) : Except Exn Str :=
  if binary then binaryMetadata git path else git.fileDiff path

/-- The header of a shard. -/
def chunkHeader (displayPath : Str) (part parts : Nat) : Str :=
  lit "\n===== FILE " ++ displayPath ++ lit " PART " ++ decimal part ++ lit "/" ++ decimal parts ++
    lit " =====\n"

/-- The shards of one file's pieces, numbered on from `index`. -/
def pieceChunks (label : Str) (chunkBytes parts : Nat) :
    Nat → Nat → List Str → Except Exn (List ReviewChunk)
  | _, _, [] => .ok []
  | index, part, piece :: pieces => do
    let payload := chunkHeader label part parts ++ piece
    rejectIf (chunkBytes < (← utf8Bytes payload))
      (lit "review chunk construction exceeded byte limit for " ++ label)
    let chunks ← pieceChunks label chunkBytes parts (index + 1) (part + 1) pieces
    return { index, files := [label], text := payload } :: chunks

/-- The loop over the changed files, after `totalBytes` bytes of diff. -/
def fileChunks (git : ReviewGit) (chunkBytes : Nat) (allowBinary : Bool) :
    Nat → Nat → List Str → Except Exn (List ReviewChunk)
  | _, _, [] => .ok []
  | index, totalBytes, path :: paths => do
    let label := displayPath path
    let binary ← git.isBinaryChange path
    rejectIf (binary = true ∧ allowBinary = false)
      (lit "binary change cannot be semantically reviewed: " ++ label ++
        lit "; set engine.final_review_allow_binary=true only when metadata-only review " ++
        lit "is acceptable")
    let diff ← candidateDiff git path binary
    let diffBytes ← utf8Bytes diff
    rejectIf (maxTotalReviewDiffBytes < totalBytes + diffBytes)
      (lit "candidate diff exceeds the 32 MB hierarchical-review safety ceiling; " ++
        lit "split the release into smaller changes")
    let headerBytes ← utf8Bytes (chunkHeader label 999999 999999)
    -- the payload budget is `chunkBytes - headerBytes`
    rejectIf (chunkBytes < headerBytes + 1024)
      (lit "review chunk budget is too small for file path ") [label]
    let text := if diff = [] then lit "[No textual diff for " ++ label ++ lit "]\n" else diff
    let pieces := splitText text (chunkBytes - headerBytes)
    let chunks ← pieceChunks label chunkBytes pieces.length index 1 pieces
    let rest ← fileChunks git chunkBytes allowBinary (index + chunks.length)
      (totalBytes + diffBytes) paths
    return chunks ++ rest

/-- The values `load_config` accepts for `engine.final_review_chunk_bytes`. -/
def AcceptedChunkBytes (chunkBytes : Nat) : Prop := 8000 ≤ chunkBytes ∧ chunkBytes ≤ 120000

/-- `changed_files`. -/
def changedFiles (git : ReviewGit) (maxFiles : Nat) : Except Exn (List Str) := do
  let files ← git.changedNames
  rejectIf (maxFiles < files.length)
    (lit "candidate changes " ++ decimal files.length ++
      lit " files; configured final-review maximum is " ++ decimal maxFiles)
  return files

/-- `build_review_chunks`: the manifest and the shards. -/
def buildReviewChunks (git : ReviewGit) (maxFiles chunkBytes : Nat) (allowBinary : Bool) :
    Except Exn (List Str × List ReviewChunk) := do
  let actualFiles ← changedFiles git maxFiles
  if actualFiles = [] then
    return ([], [{ index := 1, files := [], text := lit "No changed files." }])
  let chunks ← fileChunks git chunkBytes allowBinary 1 0 actualFiles
  return (actualFiles.map displayPath, chunks)

/-! ## A diff of one line -/

/-- A text without a line boundary is one line. -/
theorem splitLines_eq_singleton {text : Str} (hne : text ≠ [])
    (h : ∀ c ∈ text, isLineBreak c = false) : splitLines text = [text] := by
  induction text with
  | nil => exact absurd rfl hne
  | cons c text ih =>
    have hc : isLineBreak c = false := h c List.mem_cons_self
    have hcr : c ≠ .scalar '\r' := by
      rintro rfl
      cases hc
    rw [splitLines]
    · rw [if_neg (by rw [hc]; exact Bool.false_ne_true)]
      cases text with
      | nil => rfl
      | cons d text =>
        rw [ih (List.cons_ne_nil d text) fun e he => h e (List.mem_cons_of_mem c he)]
        rfl
    · exact fun _ h _ => hcr h

theorem splitLines_replicate {c : PyChar} (hc : isLineBreak c = false) (n : Nat) :
    splitLines (List.replicate (n + 1) c) = [List.replicate (n + 1) c] := by
  apply splitLines_eq_singleton
  · rw [List.replicate_succ]
    exact List.cons_ne_nil c _
  · intro d hd
    rw [List.eq_of_mem_replicate hd]
    exact hc

theorem splitText_replicate {c : PyChar} (hc : isLineBreak c = false) {n maxBytes : Nat}
    (hn : (n + 1) * byteSize c ≤ maxBytes) :
    splitText (List.replicate (n + 1) c) maxBytes = [List.replicate (n + 1) c] := by
  have hfits : byteLen (List.replicate (n + 1) c) ≤ maxBytes := by
    rwa [byteLen_replicate]
  rw [splitText, splitLines_replicate hc, splitLoop, if_pos hfits, if_neg (by simp), splitLoop,
    flush, if_neg (List.cons_ne_nil _ _)]
  simp

theorem rejectIf_neg {condition : Prop} [Decidable condition] (h : ¬ condition) (message : Str)
    (shown : List Str) : rejectIf condition message shown = .ok () := by
  rw [rejectIf, if_neg h]

/-- A single text file whose diff is one line that fits is one shard. -/
theorem buildReviewChunks_line {git : ReviewGit} {path diff : Str} {maxFiles chunkBytes : Nat}
    {allowBinary : Bool} (hnames : git.changedNames = .ok [path]) (hmax : maxFiles ≠ 0)
    (hbinary : git.isBinaryChange path = .ok false) (hdiff : git.fileDiff path = .ok diff)
    (hne : diff ≠ []) (htext : isText diff = true) (hlabel : isText (displayPath path) = true)
    (htotal : byteLen diff ≤ maxTotalReviewDiffBytes)
    (hbudget : byteLen (chunkHeader (displayPath path) 999999 999999) + 1024 ≤ chunkBytes)
    (hpiece : splitText diff
      (chunkBytes - byteLen (chunkHeader (displayPath path) 999999 999999)) = [diff])
    (hfits : byteLen (chunkHeader (displayPath path) 1 1) + byteLen diff ≤ chunkBytes) :
    buildReviewChunks git maxFiles chunkBytes allowBinary =
      .ok ([displayPath path],
        [⟨1, [displayPath path], chunkHeader (displayPath path) 1 1 ++ diff⟩]) := by
  have hheader : ∀ part parts, isText (chunkHeader (displayPath path) part parts) = true := by
    intro part parts
    simp [chunkHeader, hlabel, decimal]
  have hpayload : isText (chunkHeader (displayPath path) 1 1 ++ diff) = true := by
    simp [hheader, htext]
  have hpieces : pieceChunks (displayPath path) chunkBytes 1 1 1 [diff] =
      .ok [⟨1, [displayPath path], chunkHeader (displayPath path) 1 1 ++ diff⟩] := by
    simp only [pieceChunks, utf8Bytes_eq hpayload, ok_bind]
    rw [rejectIf_neg (by rw [byteLen_append]; omega)]
    rfl
  have hfiles : fileChunks git chunkBytes allowBinary 1 0 [path] =
      .ok [⟨1, [displayPath path], chunkHeader (displayPath path) 1 1 ++ diff⟩] := by
    simp only [fileChunks, hbinary, ok_bind, candidateDiff, Bool.false_eq_true, false_and, if_false,
      hdiff, utf8Bytes_eq htext, utf8Bytes_eq (hheader _ _), hne, hpiece, List.length_singleton,
      hpieces]
    rw [rejectIf_neg not_false, ok_bind, rejectIf_neg (by omega), ok_bind,
      rejectIf_neg (by omega), ok_bind]
    rfl
  have hchanged : changedFiles git maxFiles = .ok [path] := by
    simp only [changedFiles, hnames, ok_bind]
    rw [rejectIf_neg (by simpa using hmax)]
    rfl
  rw [buildReviewChunks, hchanged, ok_bind, if_neg (List.cons_ne_nil _ _), hfiles]
  rfl

end OmarchyYolo
