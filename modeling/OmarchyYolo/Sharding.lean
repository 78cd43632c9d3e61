import OmarchyYolo.ReviewSource

/-!
# OmarchyYolo.Sharding — the shards carry the whole diff

What `_split_text` does to a text, and what `build_review_chunks` makes of the
pieces of every changed file.

* `splitText_flatten`, `splitText_le`, `splitText_length` — nothing is lost, no
  piece is too large, and there are not too many of them;
* `Sharded` — the shards of one changed file;
* `review_shards_lossless` — every result of `buildReviewChunks`.
-/

namespace OmarchyYolo

open Py PyJson

/-! ## Pieces -/

theorem consLine_flatten (c : PyChar) (lines : List Str) :
    (consLine c lines).flatten = c :: lines.flatten := by
  cases lines with
  | nil => rfl
  | cons line lines => rfl

/-- The lines, line breaks included, make up the text. -/
theorem splitLines_flatten (text : Str) : (splitLines text).flatten = text := by
  induction text using splitLines.induct with
  | case1 => rfl
  | case2 text ih =>
    rw [splitLines, List.flatten_cons, ih]
    rfl
  | case3 c text hcr hbreak ih =>
    rw [splitLines, if_pos hbreak, List.flatten_cons, ih]
    · rfl
    · exact hcr
  | case4 c text hcr hbreak ih =>
    rw [splitLines, if_neg hbreak, consLine_flatten, ih]
    exact hcr

section Split

variable {maxBytes : Nat}

theorem splitLine_flatten (line fragment : Str) (fragmentBytes : Nat) :
    (splitLine maxBytes line fragment fragmentBytes).flatten = fragment.reverse ++ line := by
  induction line generalizing fragment fragmentBytes with
  | nil =>
    cases fragment with
    | nil => rfl
    | cons c fragment =>
      rw [splitLine, List.flatten_singleton, List.append_nil]
      exact List.cons_ne_nil c fragment
  | cons c line ih =>
    rw [splitLine]
    split_ifs
    · rw [List.flatten_cons, ih, List.reverse_singleton]
      rfl
    · rw [ih, List.reverse_cons, List.append_assoc]
      rfl

theorem flush_flatten (current : List Str) : (flush current).flatten = current.reverse.flatten := by
  rw [flush]
  split_ifs with h
  · rw [h]
    rfl
  · exact List.flatten_singleton

theorem splitLoop_flatten (lines current : List Str) (currentBytes : Nat) :
    (splitLoop maxBytes lines current currentBytes).flatten =
      current.reverse.flatten ++ lines.flatten := by
  induction lines generalizing current currentBytes with
  | nil => rw [splitLoop, flush_flatten, List.flatten_nil, List.append_nil]
  | cons line lines ih =>
    rw [splitLoop]
    split_ifs
    · rw [List.flatten_append, flush_flatten, ih]
      simp
    · rw [ih]
      simp
    · rw [List.flatten_append, List.flatten_append, flush_flatten, splitLine_flatten, ih]
      simp

/-- The pieces make up the text. -/
theorem splitText_flatten (text : Str) : (splitText text maxBytes).flatten = text := by
  have hloop : (splitLoop maxBytes (splitLines text) [] 0).flatten = text := by
    rw [splitLoop_flatten, splitLines_flatten]
    rfl
  rw [splitText]
  split
  · rename_i hnil
    rw [hnil] at hloop
    exact hloop
  · exact hloop

theorem byteSize_le (c : PyChar) : byteSize c ≤ 4 := by
  cases c with
  | scalar c => exact Char.utf8Size_le_four c
  | surrogate low bits => exact Nat.le_succ 3

theorem byteLen_reverse (s : Str) : byteLen s.reverse = byteLen s := by
  rw [byteLen, byteLen, List.map_reverse, List.sum_reverse]

/-- The fragments of a line are no larger than the bound. -/
theorem splitLine_le (hmax : 4 ≤ maxBytes) {line fragment : Str}
    (hfragment : byteLen fragment ≤ maxBytes) :
    ∀ piece ∈ splitLine maxBytes line fragment (byteLen fragment), byteLen piece ≤ maxBytes := by
  induction line generalizing fragment with
  | nil =>
    cases fragment with
    | nil => exact fun piece hp => absurd hp List.not_mem_nil
    | cons c fragment =>
      intro piece hp
      obtain rfl := List.mem_singleton.mp hp
      rw [byteLen_reverse]
      exact hfragment
  | cons c line ih =>
    have hchar := byteSize_le c
    rw [splitLine]
    split_ifs with hfull
    · intro piece hp
      rcases List.mem_cons.mp hp with rfl | hp
      · rw [byteLen_reverse]
        exact hfragment
      · have hone : byteLen [c] = byteSize c := by simp
        rw [← hone] at hp
        exact ih (by rw [hone]; omega) piece hp
    · -- the character fits, or the fragment is empty
      have hcons : byteLen (c :: fragment) ≤ maxBytes := by
        rw [byteLen_cons]
        by_cases hempty : fragment = []
        · rw [hempty, byteLen_nil]
          omega
        · by_contra hlarge
          exact hfull ⟨hempty, by omega⟩
      have hbytes : byteLen fragment + byteSize c = byteLen (c :: fragment) := by
        rw [byteLen_cons, Nat.add_comm]
      rw [hbytes]
      exact ih hcons

variable (maxBytes) in
/-- Every fragment but the last leaves at most three bytes of the bound unused. -/
theorem splitLine_length (line fragment : Str) :
    (splitLine maxBytes line fragment (byteLen fragment)).length * (maxBytes - 3) ≤
      byteLen line + byteLen fragment + (maxBytes - 3) := by
  induction line generalizing fragment with
  | nil =>
    cases fragment with
    | nil => exact Nat.zero_mul _ ▸ Nat.zero_le _
    | cons c fragment =>
      have hone : (splitLine maxBytes [] (c :: fragment) (byteLen (c :: fragment))).length = 1 :=
        rfl
      rw [hone]
      omega
  | cons c line ih =>
    have hchar := byteSize_le c
    rw [splitLine, byteLen_cons]
    split_ifs with hfull
    · have hone : byteLen [c] = byteSize c := by simp
      have hrest := ih [c]
      rw [hone] at hrest
      rw [List.length_cons, Nat.succ_mul]
      omega
    · have hbytes : byteLen fragment + byteSize c = byteLen (c :: fragment) := by
        rw [byteLen_cons, Nat.add_comm]
      have hrest := ih (c :: fragment)
      rw [byteLen_cons] at hrest
      rw [hbytes, byteLen_cons]
      omega

/-- The bytes of the lines collected so far. -/
theorem byteLen_collect (line : Str) (current : List Str) :
    byteLen (line :: current).reverse.flatten =
      byteLen current.reverse.flatten + byteLen line := by
  rw [List.reverse_cons, List.flatten_append, byteLen_append, List.flatten_singleton]

theorem flush_le {current : List Str} (h : byteLen current.reverse.flatten ≤ maxBytes) :
    ∀ piece ∈ flush current, byteLen piece ≤ maxBytes := by
  intro piece hp
  rw [flush] at hp
  split_ifs at hp
  · exact absurd hp List.not_mem_nil
  · rw [List.mem_singleton.mp hp]
    exact h

theorem flush_length (current : List Str) : (flush current).length ≤ 1 := by
  rw [flush]
  split_ifs
  · exact Nat.zero_le 1
  · exact Nat.le_refl 1

theorem splitLoop_le (hmax : 4 ≤ maxBytes) {lines current : List Str}
    (hcurrent : byteLen current.reverse.flatten ≤ maxBytes) :
    ∀ piece ∈ splitLoop maxBytes lines current (byteLen current.reverse.flatten),
      byteLen piece ≤ maxBytes := by
  induction lines generalizing current with
  | nil => exact flush_le hcurrent
  | cons line lines ih =>
    rw [splitLoop]
    split_ifs with hfits hfull
    · intro piece hp
      rcases List.mem_append.mp hp with hp | hp
      · exact flush_le hcurrent piece hp
      · have hone : byteLen [line].reverse.flatten = byteLen line := by simp
        rw [← hone] at hp
        exact ih (by rw [hone]; exact hfits) piece hp
    · rw [← byteLen_collect]
      refine ih ?_
      rw [byteLen_collect]
      by_cases hempty : current = []
      · rw [hempty]
        simpa using hfits
      · by_contra hlarge
        exact hfull ⟨hempty, by omega⟩
    · intro piece hp
      rcases List.mem_append.mp hp with hp | hp
      · rcases List.mem_append.mp hp with hp | hp
        · exact flush_le hcurrent piece hp
        · exact splitLine_le hmax (Nat.zero_le _) piece hp
      · exact ih (Nat.zero_le _) piece hp

/-- The number of pieces: those of an oversized line are charged to it, and so is the
flush before it; a flush for want of space is charged to the line that did not fit. -/
theorem splitLoop_length (lines current : List Str) :
    (splitLoop maxBytes lines current (byteLen current.reverse.flatten)).length * (maxBytes - 3) ≤
      3 * byteLen lines.flatten + byteLen current.reverse.flatten + (maxBytes - 3) := by
  induction lines generalizing current with
  | nil =>
    rw [splitLoop]
    have hflush := Nat.mul_le_mul_right (maxBytes - 3) (flush_length current)
    omega
  | cons line lines ih =>
    have hflush := Nat.mul_le_mul_right (maxBytes - 3) (flush_length current)
    rw [splitLoop, List.flatten_cons, byteLen_append]
    split_ifs with hfits hfull
    · have hone : byteLen [line].reverse.flatten = byteLen line := by simp
      have hrest := ih [line]
      rw [hone] at hrest
      rw [List.length_append, Nat.add_mul]
      omega
    · have hrest := ih (line :: current)
      rw [byteLen_collect] at hrest
      rw [← byteLen_collect, byteLen_collect]
      omega
    · have hline := splitLine_length maxBytes line []
      have hrest := ih []
      rw [List.length_append, List.length_append, Nat.add_mul, Nat.add_mul]
      simp only [List.reverse_nil, List.flatten_nil, byteLen_nil] at hline hrest
      omega

theorem splitText_ne_nil (text : Str) : splitText text maxBytes ≠ [] := by
  rw [splitText]
  split
  · exact List.cons_ne_nil _ _
  · assumption

theorem splitText_le (hmax : 4 ≤ maxBytes) (text : Str) :
    ∀ piece ∈ splitText text maxBytes, byteLen piece ≤ maxBytes := by
  intro piece hp
  rw [splitText] at hp
  split at hp
  · rw [List.mem_singleton.mp hp]
    exact Nat.zero_le _
  · exact splitLoop_le hmax (Nat.zero_le _) piece hp

/-- A text has about three pieces for every `maxBytes` bytes, at most. -/
theorem splitText_length (text : Str) :
    (splitText text maxBytes).length * (maxBytes - 3) ≤ 3 * byteLen text + (maxBytes - 3) := by
  have hloop : (splitLoop maxBytes (splitLines text) [] 0).length * (maxBytes - 3) ≤
      3 * byteLen (splitLines text).flatten + 0 + (maxBytes - 3) :=
    splitLoop_length (splitLines text) []
  rw [splitLines_flatten] at hloop
  rw [splitText]
  split
  · rw [List.length_singleton]
    omega
  · omega

theorem isText_splitText {text : Str} (h : isText text = true) :
    ∀ piece ∈ splitText text maxBytes, isText piece = true := by
  intro piece hp
  refine isText_of_subset (fun c hc => ?_) h
  have hflatten : (splitText text maxBytes).flatten = text := splitText_flatten text
  rw [← hflatten]
  exact List.mem_flatten.mpr ⟨piece, hp, hc⟩

end Split

/-! ## Shards of one file -/

theorem byteLen_decimal (n : Nat) : byteLen (decimal n) = (Nat.toDigits 10 n).length := by
  have hdigits : ∀ cs : List Char, (∀ c ∈ cs, c.isDigit) → byteLen (ofChars cs) = cs.length := by
    intro cs hcs
    induction cs with
    | nil => rfl
    | cons c cs ih =>
      have hsize : c.utf8Size = 1 := by
        have hc := hcs c List.mem_cons_self
        simp only [Char.isDigit, Bool.and_eq_true, decide_eq_true_eq] at hc
        exact Char.utf8Size_eq_one_iff.mpr (UInt32.le_trans hc.2 (by decide))
      show byteSize (.scalar c) + byteLen (ofChars cs) = _
      rw [ih fun d hd => hcs d (List.mem_cons_of_mem c hd), byteSize, hsize, List.length_cons,
        Nat.add_comm]
  exact hdigits _ fun c hc => Nat.isDigit_of_mem_toDigits (by decide) (by decide) hc

/-- The header of the probe is no shorter than a header that is written. -/
theorem chunkHeader_le {label : Str} {part parts : Nat} (hpart : part ≤ 999999)
    (hparts : parts ≤ 999999) :
    byteLen (chunkHeader label part parts) ≤ byteLen (chunkHeader label 999999 999999) := by
  have hsix : ∀ n ≤ 999999, byteLen (decimal n) ≤ 6 := by
    intro n hn
    rw [byteLen_decimal, Nat.length_toDigits_le_iff (by decide) (by decide)]
    omega
  have hprobe : byteLen (decimal 999999) = 6 := by decide
  have h₁ := hsix part hpart
  have h₂ := hsix parts hparts
  simp only [chunkHeader, byteLen_append, hprobe]
  omega

/-- The shards of a file's pieces, numbered on from `index`. -/
def shardsFrom (label : Str) (parts : Nat) : Nat → Nat → List Str → List ReviewChunk
  | _, _, [] => []
  | index, part, piece :: pieces =>
    { index, files := [label], text := chunkHeader label part parts ++ piece } ::
      shardsFrom label parts (index + 1) (part + 1) pieces

theorem shardsFrom_length {label : Str} {parts : Nat} (pieces : List Str) (index part : Nat) :
    (shardsFrom label parts index part pieces).length = pieces.length := by
  induction pieces generalizing index part with
  | nil => rfl
  | cons piece pieces ih => rw [shardsFrom, List.length_cons, ih, List.length_cons]

theorem shardsFrom_index {label : Str} {parts : Nat} (pieces : List Str) (index part : Nat) :
    (shardsFrom label parts index part pieces).map ReviewChunk.index =
      List.range' index pieces.length := by
  induction pieces generalizing index part with
  | nil => rfl
  | cons piece pieces ih =>
    rw [shardsFrom, List.map_cons, ih, List.length_cons, List.range'_succ]

theorem shardsFrom_files {label : Str} {parts : Nat} (pieces : List Str) (index part : Nat) :
    ∀ shard ∈ shardsFrom label parts index part pieces, shard.files = [label] := by
  induction pieces generalizing index part with
  | nil => exact fun shard hs => absurd hs List.not_mem_nil
  | cons piece pieces ih =>
    intro shard hs
    rcases List.mem_cons.mp hs with rfl | hs
    · rfl
    · exact ih _ _ shard hs

/-- The texts of shards, without the headers of their parts. -/
def stripHeaders (label : Str) (parts : Nat) : Nat → List ReviewChunk → Str
  | _, [] => []
  | part, shard :: shards =>
    shard.text.drop (chunkHeader label part parts).length ++
      stripHeaders label parts (part + 1) shards

/-- Every shard has the header of its part. -/
def Headed (label : Str) (parts : Nat) : Nat → List ReviewChunk → Prop
  | _, [] => True
  | part, shard :: shards =>
    chunkHeader label part parts <+: shard.text ∧ Headed label parts (part + 1) shards

theorem shardsFrom_headed {label : Str} {parts : Nat} (pieces : List Str) (index part : Nat) :
    Headed label parts part (shardsFrom label parts index part pieces) := by
  induction pieces generalizing index part with
  | nil => trivial
  | cons piece pieces ih => exact ⟨⟨piece, rfl⟩, ih _ _⟩

theorem stripHeaders_shardsFrom {label : Str} {parts : Nat} (pieces : List Str)
    (index part : Nat) :
    stripHeaders label parts part (shardsFrom label parts index part pieces) = pieces.flatten := by
  induction pieces generalizing index part with
  | nil => rfl
  | cons piece pieces ih =>
    rw [shardsFrom, stripHeaders, List.drop_left, ih, List.flatten_cons]

/-- `pieceChunks`, where every piece is a text and has room behind its header. -/
theorem pieceChunks_eq {label : Str} {chunkBytes parts : Nat} {pieces : List Str}
    (hlabel : isText label = true) (htext : ∀ piece ∈ pieces, isText piece = true)
    {index part : Nat} (hfits : ∀ p < part + pieces.length, ∀ piece ∈ pieces,
      byteLen (chunkHeader label p parts) + byteLen piece ≤ chunkBytes) :
    pieceChunks label chunkBytes parts index part pieces =
      .ok (shardsFrom label parts index part pieces) := by
  induction pieces generalizing index part with
  | nil => rfl
  | cons piece pieces ih =>
    have hpayload : isText (chunkHeader label part parts ++ piece) = true := by
      simp [chunkHeader, hlabel, decimal, htext piece List.mem_cons_self]
    have hsize := hfits part (by rw [List.length_cons]; omega) piece List.mem_cons_self
    have hrest : pieceChunks label chunkBytes parts (index + 1) (part + 1) pieces =
        .ok (shardsFrom label parts (index + 1) (part + 1) pieces) :=
      ih (fun p hp => htext p (List.mem_cons_of_mem _ hp)) fun p hp q hq =>
        hfits p (by rw [List.length_cons]; omega) q (List.mem_cons_of_mem _ hq)
    simp only [pieceChunks, utf8Bytes_eq hpayload, ok_bind]
    rw [rejectIf_neg (by rw [byteLen_append]; omega), ok_bind, hrest, ok_bind]
    rfl

/-- After the checks of a file, none of its pieces is refused. -/
theorem pieceChunks_splitText {label text : Str} {chunkBytes : Nat} (hlabel : isText label = true)
    (htext : isText text = true) (hbytes : byteLen text ≤ maxTotalReviewDiffBytes)
    (hbudget : byteLen (chunkHeader label 999999 999999) + 1024 ≤ chunkBytes) (index : Nat) :
    let pieces := splitText text (chunkBytes - byteLen (chunkHeader label 999999 999999))
    pieceChunks label chunkBytes pieces.length index 1 pieces =
      .ok (shardsFrom label pieces.length index 1 pieces) := by
  intro pieces
  have hmax : 1024 ≤ chunkBytes - byteLen (chunkHeader label 999999 999999) := by omega
  have hcount : pieces.length < 999999 := by
    have hlength : pieces.length *
        (chunkBytes - byteLen (chunkHeader label 999999 999999) - 3) ≤ 3 * byteLen text +
          (chunkBytes - byteLen (chunkHeader label 999999 999999) - 3) := splitText_length text
    by_contra hmany
    have hlarge : 999999 * (chunkBytes - byteLen (chunkHeader label 999999 999999) - 3) ≤
        pieces.length * (chunkBytes - byteLen (chunkHeader label 999999 999999) - 3) :=
      Nat.mul_le_mul_right _ (by omega)
    unfold maxTotalReviewDiffBytes at hbytes
    omega
  refine pieceChunks_eq hlabel (isText_splitText htext) fun p hp piece hpiece => ?_
  change p < 1 + pieces.length at hp
  have hheader : byteLen (chunkHeader label p pieces.length) ≤
      byteLen (chunkHeader label 999999 999999) := chunkHeader_le (by omega) (by omega)
  have hpiece := splitText_le (by omega) text piece hpiece
  omega

theorem pieceChunks_le {label : Str} {chunkBytes parts : Nat} {pieces : List Str} :
    ∀ {index part : Nat} {chunks : List ReviewChunk},
      pieceChunks label chunkBytes parts index part pieces = .ok chunks →
        ∀ chunk ∈ chunks, byteLen chunk.text ≤ chunkBytes := by
  induction pieces with
  | nil =>
    intro index part chunks h chunk hc
    cases h
    exact absurd hc List.not_mem_nil
  | cons piece pieces ih =>
    intro index part chunks h
    simp only [pieceChunks, bind_ok_iff, utf8Bytes_eq_ok, rejectIf_eq_ok] at h
    obtain ⟨-, ⟨-, rfl⟩, -, hfits, rest, hrest, h⟩ := h
    cases h
    intro chunk hc
    rcases List.mem_cons.mp hc with rfl | hc
    · exact Nat.le_of_not_lt hfits
    · exact ih hrest chunk hc

/-! ## Every result -/

/-- The diff of a changed file, or what is shown of a binary one. -/
def reviewedDiff (git : ReviewGit) (path : Str) : Except Exn Str := do
  let binary ← git.isBinaryChange path
  candidateDiff git path binary

/-- What is sharded: the diff, or the placeholder of an empty one. -/
def shardedText (label diff : Str) : Str :=
  if diff = [] then lit "[No textual diff for " ++ label ++ lit "]\n" else diff

/-- The shards of one changed file. -/
structure Sharded (git : ReviewGit) (chunkBytes : Nat) (path : Str) (shards : List ReviewChunk) :
    Prop where
  nonempty : shards ≠ []
  fileLocal : ∀ shard ∈ shards, shard.files = [displayPath path]
  bounded : ∀ shard ∈ shards, byteLen shard.text ≤ chunkBytes
  headed : Headed (displayPath path) shards.length 1 shards
  lossless : ∃ diff, reviewedDiff git path = .ok diff ∧
    stripHeaders (displayPath path) shards.length 1 shards = shardedText (displayPath path) diff

theorem byteLen_shardedText {label diff : Str} {chunkBytes : Nat} (hchunk : chunkBytes ≤ 120000)
    (hdiff : byteLen diff ≤ maxTotalReviewDiffBytes)
    (hbudget : byteLen (chunkHeader label 999999 999999) + 1024 ≤ chunkBytes) :
    byteLen (shardedText label diff) ≤ maxTotalReviewDiffBytes := by
  rw [shardedText]
  split_ifs
  · have hopen : byteLen (lit "[No textual diff for ") = 21 := by decide
    have hclose : byteLen (lit "]\n") = 2 := by decide
    rw [byteLen_append, byteLen_append, hopen, hclose]
    simp only [chunkHeader, byteLen_append] at hbudget
    unfold maxTotalReviewDiffBytes
    omega
  · exact hdiff

theorem isText_shardedText {label diff : Str} (hlabel : isText label = true)
    (hdiff : isText diff = true) : isText (shardedText label diff) = true := by
  rw [shardedText]
  split_ifs
  · simp [hlabel]
  · exact hdiff

/-- The shards of the changed files, one file after the other. -/
theorem fileChunks_sharded {git : ReviewGit} {chunkBytes : Nat} {allowBinary : Bool}
    (hchunk : chunkBytes ≤ 120000) {paths : List Str} :
    ∀ {index totalBytes : Nat} {chunks : List ReviewChunk},
      fileChunks git chunkBytes allowBinary index totalBytes paths = .ok chunks →
        chunks.map ReviewChunk.index = List.range' index chunks.length ∧
        ∃ groups, chunks = groups.flatten ∧ List.Forall₂ (Sharded git chunkBytes) paths groups := by
  -- over the paths: each gives the shards of one file
  induction paths with
  | nil =>
    intro index totalBytes chunks h
    cases h
    exact ⟨rfl, [], rfl, .nil⟩
  | cons path paths ih =>
    intro index totalBytes chunks h
    simp only [fileChunks, bind_ok_iff, utf8Bytes_eq_ok, rejectIf_eq_ok] at h
    obtain ⟨binary, hbinary, -, -, diff, hdiff, -, ⟨htext, rfl⟩, -, htotal, -, ⟨hheader, rfl⟩, -,
      hbudget, own, hown, rest, hrest, h⟩ := h
    cases h
    -- the label of the path is text, since the header is
    have hlabel : isText (displayPath path) = true := by
      simp only [chunkHeader, isText_append, Bool.and_eq_true] at hheader
      tauto
    have hbudget : byteLen (chunkHeader (displayPath path) 999999 999999) + 1024 ≤ chunkBytes :=
      Nat.le_of_not_lt hbudget
    -- the shards of one diff stay below the ceiling of the whole
    have hbytes : byteLen (shardedText (displayPath path) diff) ≤ maxTotalReviewDiffBytes :=
      byteLen_shardedText hchunk (by omega) hbudget
    have hpieces := pieceChunks_splitText hlabel (isText_shardedText hlabel htext) hbytes hbudget
      index
    obtain ⟨hindex, groups, hrest', hgroups⟩ := ih hrest
    have hbounded := pieceChunks_le hown
    have hown : own = shardsFrom (displayPath path) _ index 1 _ :=
      Except.ok.inj (hown.symm.trans hpieces)
    have hlength := congrArg List.length hown
    rw [shardsFrom_length] at hlength
    refine ⟨?_, own :: groups, by rw [hrest', List.flatten_cons], .cons ?_ hgroups⟩
    -- the indices go on where those of this file end
    · rw [List.map_append, hindex, List.length_append, ← List.range'_append_1, hlength]
      exact congrArg (· ++ _) ((congrArg _ hown).trans (shardsFrom_index _ _ _))
    -- what `Sharded` asks of the shards of this file
    · have hfile : ∀ shard ∈ own, shard.files = [displayPath path] := by
        rw [hown]
        exact shardsFrom_files _ _ _
      have hheaded : Headed (displayPath path) own.length 1 own := by
        rw [hlength, hown]
        exact shardsFrom_headed _ _ _
      have hstripped : stripHeaders (displayPath path) own.length 1 own =
          shardedText (displayPath path) diff := by
        rw [hlength, hown, stripHeaders_shardsFrom]
        exact splitText_flatten _
      have hnonempty : own ≠ [] := by
        rw [← List.length_pos_iff, hlength, List.length_pos_iff]
        exact splitText_ne_nil _
      refine ⟨hnonempty, hfile, hbounded, hheaded, diff, ?_, hstripped⟩
      rw [reviewedDiff, hbinary, ok_bind, hdiff]

/-- What `buildReviewChunks` returns, for changed files and for none. -/
theorem buildReviewChunks_sharded {git : ReviewGit} {maxFiles chunkBytes : Nat}
    {allowBinary : Bool} (hbytes : AcceptedChunkBytes chunkBytes) {manifest : List Str}
    {chunks : List ReviewChunk}
    (h : buildReviewChunks git maxFiles chunkBytes allowBinary = .ok (manifest, chunks)) :
    ∃ files, git.changedNames = .ok files ∧ manifest = files.map displayPath ∧
      chunks.map ReviewChunk.index = List.range' 1 chunks.length ∧
      (files = [] → chunks = [⟨1, [], lit "No changed files."⟩]) ∧
      (files ≠ [] → ∃ groups, chunks = groups.flatten ∧
        List.Forall₂ (Sharded git chunkBytes) files groups) := by
  simp only [buildReviewChunks, changedFiles, bind_ok_iff] at h
  obtain ⟨files, ⟨_, hnames, _, -, hfiles⟩, h⟩ := h
  cases hfiles
  split_ifs at h with hempty
  · cases h
    exact ⟨files, hnames, by rw [hempty]; rfl, rfl, fun _ => rfl, fun hne => absurd hempty hne⟩
  · obtain ⟨all, hall, h⟩ := bind_ok_iff.mp h
    cases h
    obtain ⟨hindex, hgroups⟩ := fileChunks_sharded hbytes.2 hall
    exact ⟨files, hnames, rfl, hindex, fun heq => absurd heq hempty, fun _ => hgroups⟩

/-- What `build_review_chunks` returns for changed files, and for none; and after the
checks of a file, its pieces are never refused. -/
theorem review_shards_lossless {chunkBytes : Nat} (hbytes : AcceptedChunkBytes chunkBytes) :
    (∀ git maxFiles allowBinary manifest chunks,
      buildReviewChunks git maxFiles chunkBytes allowBinary = .ok (manifest, chunks) →
      chunks.map ReviewChunk.index = List.range' 1 chunks.length ∧
      ∃ files, git.changedNames = .ok files ∧
        (files = [] → chunks = [⟨1, [], lit "No changed files."⟩]) ∧
        (files ≠ [] → ∃ groups, chunks = groups.flatten ∧
          List.Forall₂ (Sharded git chunkBytes) files groups)) ∧
    ∀ label diff index, isText diff = true → byteLen diff ≤ maxTotalReviewDiffBytes →
      isText (chunkHeader label 999999 999999) = true →
      byteLen (chunkHeader label 999999 999999) + 1024 ≤ chunkBytes →
      let pieces := splitText (shardedText label diff)
        (chunkBytes - byteLen (chunkHeader label 999999 999999))
      ∃ shards, pieceChunks label chunkBytes pieces.length index 1 pieces = .ok shards := by
  constructor
  · intro git maxFiles allowBinary manifest chunks h
    obtain ⟨files, hnames, -, hindex, hnone, hsome⟩ := buildReviewChunks_sharded hbytes h
    exact ⟨hindex, files, hnames, hnone, hsome⟩
  · intro label diff index htext hdiff hheader hbudget pieces
    have hlabel : isText label = true := by
      simp only [chunkHeader, isText_append, Bool.and_eq_true] at hheader
      tauto
    exact ⟨_, pieceChunks_splitText hlabel (isText_shardedText hlabel htext)
      (byteLen_shardedText hbytes.2 hdiff hbudget) hbudget index⟩

/-- A candidate without changes. -/
def unchangedGit : ReviewGit where
  changedNames := .ok []
  isBinaryChange _ := .ok false
  rawMetadata _ := .ok []
  summaryMetadata _ := .ok []
  fileDiff _ := .ok []

/-- The one shard of a candidate without changes names no file. -/
theorem unchanged_shard_no_file :
    AcceptedChunkBytes 60000 ∧ ∃ chunk,
      buildReviewChunks unchangedGit 512 60000 false = .ok ([], [chunk]) ∧
        chunk.files.length ≠ 1 :=
  ⟨⟨by decide, by decide⟩, ⟨1, [], lit "No changed files."⟩, rfl, by decide⟩

/-- A candidate that adds one line to one file. -/
def oneLineGit : ReviewGit where
  changedNames := .ok [lit "a.txt"]
  isBinaryChange _ := .ok false
  rawMetadata _ := .ok []
  summaryMetadata _ := .ok []
  fileDiff _ := .ok (lit "+x\n")

/-- Its diff is one shard. -/
theorem review_shards_lossless_oneLine :
    ∃ groups, [⟨1, [lit "a.txt"], lit "\n===== FILE a.txt PART 1/1 =====\n+x\n"⟩] =
        groups.flatten ∧ List.Forall₂ (Sharded oneLineGit 60000) [lit "a.txt"] groups := by
  have hbytes : AcceptedChunkBytes 60000 := ⟨by decide, by decide⟩
  have hbuild : buildReviewChunks oneLineGit 512 60000 false = .ok ([lit "a.txt"],
      [⟨1, [lit "a.txt"], lit "\n===== FILE a.txt PART 1/1 =====\n+x\n"⟩]) := by
    decide +kernel
  obtain ⟨-, files, hnames, -, hgroups⟩ :=
    (review_shards_lossless hbytes).1 oneLineGit 512 false _ _ hbuild
  cases hnames
  exact hgroups (List.cons_ne_nil _ _)

end OmarchyYolo
