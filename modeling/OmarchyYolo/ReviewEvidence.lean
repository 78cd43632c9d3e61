import OmarchyYolo.Reviewer
import OmarchyYolo.ReviewSource

/-!
# OmarchyYolo.ReviewEvidence — does the reviewer see the whole evidence?

Goal, gate summary, shard and synthesis inputs have ceilings of their own; the
prompt made of them is cut at `maxPromptArgBytes`. In all three prompts one
newline follows the last placeholder, and the marker of a cut is longer than
that: the child process is handed all of the evidence exactly when the whole
prompt fits (`evidence_handed_over_iff`).
-/

namespace OmarchyYolo

open Py PyJson

/-! ## What is handed over -/

/-- The child process is handed what is kept of the prompt, perhaps with the
marker of a cut behind it, and `part` is a part of what is kept. -/
def HandsOver (prompt part : Str) : Prop :=
  ∃ tail, (tail = [] ∨ tail = promptMarker) ∧
    (∀ child, CommandAgent.run child prompt =
      child (keptPart prompt maxPromptArgBytes promptMarker ++ tail)) ∧
    part <+: keptPart prompt maxPromptArgBytes promptMarker

theorem byteLen_promptMarker : byteLen promptMarker = 42 := by
  decide +kernel

/-- A text prompt is always handed over in this form. -/
theorem run_eq_child {prompt : Str} (h : isText prompt = true) :
    ∃ tail, (tail = [] ∨ tail = promptMarker) ∧ ∀ child, CommandAgent.run child prompt =
      child (keptPart prompt maxPromptArgBytes promptMarker ++ tail) := by
  by_cases hfits : byteLen prompt ≤ maxPromptArgBytes
  · refine ⟨[], Or.inl rfl, fun child => ?_⟩
    rw [List.append_nil, keptPart, if_pos hfits]
    simp only [CommandAgent.run, boundedPrompt, truncateUtf8, utf8Bytes_eq h, ok_bind,
      if_pos hfits]
    rfl
  · refine ⟨promptMarker, Or.inr rfl, fun child => ?_⟩
    simp only [CommandAgent.run, boundedPrompt, truncateUtf8, utf8Bytes_eq h, ok_bind,
      if_neg hfits]
    rfl

/-- A part of a text prompt is handed over when it is kept. -/
theorem handsOver_iff_kept {prompt part : Str} (h : isText prompt = true) :
    HandsOver prompt part ↔ part <+: keptPart prompt maxPromptArgBytes promptMarker := by
  obtain ⟨tail, htail, hrun⟩ := run_eq_child h
  exact ⟨fun ⟨_, _, _, hkept⟩ => hkept, fun hkept => ⟨tail, htail, hrun, hkept⟩⟩

/-- Everything in front of the final newline is handed over exactly when the
prompt fits. -/
theorem handsOver_iff {part : Str} (h : isText part = true) :
    HandsOver (part ++ lit "\n") part ↔ byteLen part + 1 ≤ maxPromptArgBytes := by
  have hmarker := byteLen_promptMarker
  have hprompt : isText (part ++ lit "\n") = true := by simp [h]
  rw [handsOver_iff_kept hprompt,
    prefix_keptPart_iff (by rw [hmarker]; decide) (by rw [hmarker]; decide)]
  exact Iff.rfl

/-! ## Texts -/

theorem isText_orElse {text default : Str} (h : isText text = true) (hd : isText default = true) :
    isText (orElse text default) = true := by
  unfold orElse
  split_ifs
  · exact hd
  · exact h

theorem isText_joinLines {lines : List Str} (h : ∀ line ∈ lines, isText line = true) :
    isText (joinLines lines) = true := by
  induction lines using joinLines.induct with
  | case1 => rfl
  | case2 line => exact h line (by simp)
  | case3 line lines hne ih =>
    rw [joinLines, isText_append, isText_cons, h line (by simp),
      ih fun l hl => h l (List.mem_cons_of_mem _ hl)]
    · rfl
    · exact hne

/-- The result of a truncation is a text. -/
theorem isText_truncateUtf8 {value marker result : Str} {maxBytes : Nat}
    (hmarker : isText marker = true) (h : truncateUtf8 value maxBytes marker = .ok result) :
    isText result = true := by
  have hkept : ∀ budget, isText value = true → isText (takeBytes budget value) = true := by
    intro budget
    exact isText_of_subset fun c hc => (takeBytes_front budget value).subset hc
  simp only [truncateUtf8, bind_ok_iff, utf8Bytes_eq_ok] at h
  obtain ⟨-, ⟨hvalue, rfl⟩, h⟩ := h
  split_ifs at h with hfits
  · cases h
    exact hvalue
  · cases h
    rw [isText_append, hmarker, keptPart, if_neg hfits, hkept _ hvalue]
    rfl

/-- Shards are texts, and so are the labels of the files they represent. -/
theorem isText_pieceChunks {label : Str} {chunkBytes parts : Nat} {pieces : List Str} :
    ∀ {index part : Nat} {chunks : List ReviewChunk},
      pieceChunks label chunkBytes parts index part pieces = .ok chunks →
        ∀ chunk ∈ chunks, isText chunk.text = true ∧ ∀ file ∈ chunk.files, isText file = true := by
  induction pieces with
  | nil =>
    rintro index part chunks ⟨⟩ chunk hc
    cases hc
  | cons piece pieces ih =>
    intro index part chunks h
    simp only [pieceChunks, bind_ok_iff, utf8Bytes_eq_ok] at h
    obtain ⟨-, ⟨htext, -⟩, -, -, rest, hrest, h⟩ := h
    cases h
    intro chunk hc
    rcases List.mem_cons.mp hc with rfl | hc
    · refine ⟨htext, fun file hf => ?_⟩
      rw [List.mem_singleton.mp hf]
      simp only [chunkHeader, isText_append, Bool.and_eq_true] at htext
      tauto
    · exact ih hrest chunk hc

theorem isText_fileChunks {git : ReviewGit} {chunkBytes : Nat} {allowBinary : Bool}
    {paths : List Str} : ∀ {index totalBytes : Nat} {chunks : List ReviewChunk},
      fileChunks git chunkBytes allowBinary index totalBytes paths = .ok chunks →
        ∀ chunk ∈ chunks, isText chunk.text = true ∧ ∀ file ∈ chunk.files, isText file = true := by
  induction paths with
  | nil =>
    rintro index totalBytes chunks ⟨⟩ chunk hc
    cases hc
  | cons path paths ih =>
    intro index totalBytes chunks h
    simp only [fileChunks, bind_ok_iff] at h
    obtain ⟨binary, -, -, -, diff, -, diffBytes, -, -, -, headerBytes, -, -, -, own, hown, rest,
      hrest, h⟩ := h
    cases h
    intro chunk hc
    rcases List.mem_append.mp hc with hc | hc
    · exact isText_pieceChunks hown chunk hc
    · exact ih hrest chunk hc

theorem isText_buildReviewChunks {git : ReviewGit} {maxFiles chunkBytes : Nat} {allowBinary : Bool}
    {manifest : List Str} {chunks : List ReviewChunk}
    (h : buildReviewChunks git maxFiles chunkBytes allowBinary = .ok (manifest, chunks)) :
    ∀ chunk ∈ chunks, isText chunk.text = true ∧ ∀ file ∈ chunk.files, isText file = true := by
  simp only [buildReviewChunks, bind_ok_iff] at h
  obtain ⟨files, -, h⟩ := h
  split_ifs at h with hempty
  · cases h
    intro chunk hc
    rw [List.mem_singleton.mp hc]
    refine ⟨by decide, ?_⟩
    intro file hfile
    cases hfile
  · obtain ⟨all, hall, h⟩ := bind_ok_iff.mp h
    cases h
    exact isText_fileChunks hall

/-! ## The length of a prompt -/

/-- The bytes of the pieces of text between the placeholders. -/
theorem byteLen_separators :
    byteLen (lit "\n\nFINAL GATES:\n") = 15 ∧ byteLen (lit "\n\nCHUNK ") = 8 ∧
      byteLen (lit "/") = 1 ∧ byteLen (lit "\nFILES REPRESENTED:\n") = 20 ∧
      byteLen (lit "\n\nCANDIDATE DIFF CHUNK:\n") = 24 ∧ byteLen (lit "\n\nFILE:\n") = 8 ∧
      byteLen (lit "\n\nSHARD SEMANTIC SUMMARIES:\n") = 28 ∧
      byteLen (lit "\n\nCHANGED FILE MANIFEST:\n") = 25 ∧
      byteLen (lit "\n\nFILE-LEVEL SEMANTIC REPORTS:\n") = 31 ∧ byteLen (lit "\n") = 1 := by
  decide +kernel

set_option maxRecDepth 20000 in
theorem byteLen_instructions :
    byteLen finalReviewInstructions = 966 ∧ byteLen fileSynthesisInstructions = 806 ∧
      byteLen finalSynthesisInstructions = 827 :=
  ⟨(byteLen_lit _).trans (by decide +kernel), (byteLen_lit _).trans (by decide +kernel),
    (byteLen_lit _).trans (by decide +kernel)⟩

/-- The template of a shard's prompt has 1035 bytes of its own. -/
theorem byteLen_finalReviewTemplate (goal gates files diff : Str) (i n : Nat) :
    byteLen (finalReviewTemplate goal gates files diff i n) =
      1035 + byteLen goal + byteLen gates + byteLen files + byteLen (decimal i) +
        byteLen (decimal n) + byteLen diff := by
  simp only [finalReviewTemplate, byteLen_append, byteLen_separators, byteLen_instructions]
  omega

theorem byteLen_fileSynthesisTemplate (goal gates filePath chunkSummaries : Str) :
    byteLen (fileSynthesisTemplate goal gates filePath chunkSummaries) =
      858 + byteLen goal + byteLen gates + byteLen filePath + byteLen chunkSummaries := by
  simp only [fileSynthesisTemplate, byteLen_append, byteLen_separators, byteLen_instructions]
  omega

theorem byteLen_finalSynthesisTemplate (goal gates manifest fileSummaries : Str) :
    byteLen (finalSynthesisTemplate goal gates manifest fileSummaries) =
      899 + byteLen goal + byteLen gates + byteLen manifest + byteLen fileSummaries := by
  simp only [finalSynthesisTemplate, byteLen_append, byteLen_separators, byteLen_instructions]
  omega

/-- A prompt that ends with its evidence and a newline hands the evidence over
exactly when it fits. -/
theorem handsOver_evidence_iff {prompt before evidence : Str}
    (hprompt : prompt = before ++ evidence ++ lit "\n") (h : isText prompt = true) :
    HandsOver prompt (before ++ evidence) ↔ byteLen prompt ≤ maxPromptArgBytes := by
  subst hprompt
  rw [isText_append, Bool.and_eq_true] at h
  rw [handsOver_iff h.1, byteLen_append (before ++ evidence)]
  rfl

/-! ## The three prompts -/

theorem isText_formatGates {gates : List GateResult} {gatesText : Str}
    (h : formatGates gates = .ok gatesText) : isText gatesText = true :=
  isText_truncateUtf8 rfl h

theorem isText_fileLines {files : List Str} (h : ∀ file ∈ files, isText file = true) :
    isText (fileLines files) = true := by
  refine isText_orElse (isText_joinLines fun line hl => ?_) (isText_lit _)
  obtain ⟨file, hf, rfl⟩ := List.mem_map.mp hl
  rw [isText_append, isText_lit, h file hf]
  rfl

theorem chunk_handed_over_iff {goal gatesText : Str} {gates : List GateResult}
    (hgoal : isText goal = true) (hgates : formatGates gates = .ok gatesText) {chunk : ReviewChunk}
    (htext : isText chunk.text = true) (hfiles : ∀ file ∈ chunk.files, isText file = true)
    (chunkTotal : Nat) :
    ∃ before,
      finalChunkPrompt goal chunk.text gates chunk.files chunk.index chunkTotal =
        .ok (before ++ chunk.text ++ lit "\n") ∧
      (HandsOver (before ++ chunk.text ++ lit "\n") (before ++ chunk.text) ↔
        1035 + byteLen goal + byteLen gatesText + byteLen (fileLines chunk.files) +
          byteLen (decimal chunk.index) + byteLen (decimal chunkTotal) + byteLen chunk.text ≤
            maxPromptArgBytes) := by
  obtain ⟨before, hprompt⟩ : ∃ before, finalReviewTemplate goal gatesText (fileLines chunk.files)
      chunk.text chunk.index chunkTotal = before ++ chunk.text ++ lit "\n" := ⟨_, rfl⟩
  have hisText : isText (finalReviewTemplate goal gatesText (fileLines chunk.files) chunk.text
      chunk.index chunkTotal) = true := by
    simp [finalReviewTemplate, finalReviewInstructions, hgoal, isText_formatGates hgates,
      isText_decimal, isText_fileLines hfiles, htext]
  refine ⟨before, ?_, ?_⟩
  · simp only [finalChunkPrompt, hgates, ok_bind]
    exact congrArg Except.ok hprompt
  · rw [handsOver_evidence_iff rfl (hprompt ▸ hisText), ← hprompt, byteLen_finalReviewTemplate]

theorem file_synthesis_handed_over_iff {goal gatesText : Str} {gates : List GateResult}
    (hgoal : isText goal = true) (hgates : formatGates gates = .ok gatesText) {filePath : Str}
    {chunkReviews : List ReviewResult} {prompt : Str}
    (h : fileSynthesisPrompt goal gates filePath chunkReviews = .ok prompt) :
    ∃ before,
      prompt = before ++ (filePath ++ lit "\n\nSHARD SEMANTIC SUMMARIES:\n" ++
        orElse (shardSummaries chunkReviews) (lit "- no shard summaries")) ++ lit "\n" ∧
      (HandsOver prompt (before ++ (filePath ++ lit "\n\nSHARD SEMANTIC SUMMARIES:\n" ++
          orElse (shardSummaries chunkReviews) (lit "- no shard summaries"))) ↔
        858 + byteLen goal + byteLen gatesText + byteLen filePath +
          byteLen (orElse (shardSummaries chunkReviews) (lit "- no shard summaries")) ≤
            maxPromptArgBytes) := by
  simp only [fileSynthesisPrompt, checkSynthesisInput, bind_ok_iff, utf8Bytes_eq_ok,
    rejectIf_eq_ok, exists_const, hgates, Except.ok.injEq, exists_eq_left'] at h
  obtain ⟨⟨-, ⟨hpath, rfl⟩, -⟩, ⟨-, ⟨hsummaries, rfl⟩, -⟩, h⟩ := h
  obtain rfl := Except.ok.inj h
  obtain ⟨before, hprompt⟩ : ∃ before, fileSynthesisTemplate goal gatesText filePath
      (orElse (shardSummaries chunkReviews) (lit "- no shard summaries")) =
      before ++ (filePath ++ lit "\n\nSHARD SEMANTIC SUMMARIES:\n" ++
        orElse (shardSummaries chunkReviews) (lit "- no shard summaries")) ++ lit "\n" :=
    ⟨fileSynthesisInstructions ++ goal ++ lit "\n\nFINAL GATES:\n" ++ gatesText ++
      lit "\n\nFILE:\n", by simp only [fileSynthesisTemplate, List.append_assoc]⟩
  have hisText : isText (fileSynthesisTemplate goal gatesText filePath
      (orElse (shardSummaries chunkReviews) (lit "- no shard summaries"))) = true := by
    simp [fileSynthesisTemplate, fileSynthesisInstructions, hgoal, isText_formatGates hgates,
      hpath, isText_orElse hsummaries]
  refine ⟨before, hprompt, ?_⟩
  rw [handsOver_evidence_iff hprompt hisText, byteLen_fileSynthesisTemplate]

theorem final_synthesis_handed_over_iff {goal gatesText : Str} {gates : List GateResult}
    (hgoal : isText goal = true) (hgates : formatGates gates = .ok gatesText)
    {manifest : List Str} {fileReviews : List (Str × ReviewResult)} {prompt : Str}
    (h : finalSynthesisPrompt goal gates manifest fileReviews = .ok prompt) :
    ∃ before,
      prompt = before ++ (manifestLines manifest ++ lit "\n\nFILE-LEVEL SEMANTIC REPORTS:\n" ++
        fileReports fileReviews) ++ lit "\n" ∧
      (HandsOver prompt (before ++ (manifestLines manifest ++
          lit "\n\nFILE-LEVEL SEMANTIC REPORTS:\n" ++ fileReports fileReviews)) ↔
        899 + byteLen goal + byteLen gatesText + byteLen (manifestLines manifest) +
          byteLen (fileReports fileReviews) ≤ maxPromptArgBytes) := by
  simp only [finalSynthesisPrompt, checkSynthesisInput, bind_ok_iff, utf8Bytes_eq_ok,
    rejectIf_eq_ok, exists_const, hgates, Except.ok.injEq, exists_eq_left'] at h
  obtain ⟨⟨-, ⟨hmanifest, rfl⟩, -⟩, ⟨-, ⟨hreports, rfl⟩, -⟩, h⟩ := h
  obtain rfl := Except.ok.inj h
  obtain ⟨before, hprompt⟩ : ∃ before, finalSynthesisTemplate goal gatesText
      (manifestLines manifest) (fileReports fileReviews) =
      before ++ (manifestLines manifest ++ lit "\n\nFILE-LEVEL SEMANTIC REPORTS:\n" ++
        fileReports fileReviews) ++ lit "\n" :=
    ⟨finalSynthesisInstructions ++ goal ++ lit "\n\nFINAL GATES:\n" ++ gatesText ++
      lit "\n\nCHANGED FILE MANIFEST:\n",
      by simp only [finalSynthesisTemplate, List.append_assoc]⟩
  have hisText : isText (finalSynthesisTemplate goal gatesText (manifestLines manifest)
      (fileReports fileReviews)) = true := by
    simp [finalSynthesisTemplate, finalSynthesisInstructions, hgoal, isText_formatGates hgates,
      hmanifest, hreports]
  refine ⟨before, hprompt, ?_⟩
  rw [handsOver_evidence_iff hprompt hisText, byteLen_finalSynthesisTemplate]

/-- For a goal that is a text and gates with a summary: every shard that is
built, and every synthesis input that passes its checks, is handed over whole
exactly when template, goal, gate summary and input together fit into the
prompt. -/
theorem evidence_handed_over_iff {goal gatesText : Str} {gates : List GateResult}
    (hgoal : isText goal = true) (hgates : formatGates gates = .ok gatesText) :
    (∀ git maxFiles chunkBytes allowBinary manifest chunks,
      buildReviewChunks git maxFiles chunkBytes allowBinary = .ok (manifest, chunks) →
      ∀ chunk ∈ chunks, ∃ before,
        finalChunkPrompt goal chunk.text gates chunk.files chunk.index chunks.length =
          .ok (before ++ chunk.text ++ lit "\n") ∧
        (HandsOver (before ++ chunk.text ++ lit "\n") (before ++ chunk.text) ↔
          1035 + byteLen goal + byteLen gatesText + byteLen (fileLines chunk.files) +
            byteLen (decimal chunk.index) + byteLen (decimal chunks.length) +
            byteLen chunk.text ≤ maxPromptArgBytes)) ∧
    (∀ filePath chunkReviews prompt,
      fileSynthesisPrompt goal gates filePath chunkReviews = .ok prompt →
      ∃ before,
        prompt = before ++ (filePath ++ lit "\n\nSHARD SEMANTIC SUMMARIES:\n" ++
          orElse (shardSummaries chunkReviews) (lit "- no shard summaries")) ++ lit "\n" ∧
        (HandsOver prompt (before ++ (filePath ++ lit "\n\nSHARD SEMANTIC SUMMARIES:\n" ++
            orElse (shardSummaries chunkReviews) (lit "- no shard summaries"))) ↔
          858 + byteLen goal + byteLen gatesText + byteLen filePath +
            byteLen (orElse (shardSummaries chunkReviews) (lit "- no shard summaries")) ≤
              maxPromptArgBytes)) ∧
    (∀ manifest fileReviews prompt,
      finalSynthesisPrompt goal gates manifest fileReviews = .ok prompt →
      ∃ before,
        prompt = before ++ (manifestLines manifest ++
          lit "\n\nFILE-LEVEL SEMANTIC REPORTS:\n" ++ fileReports fileReviews) ++ lit "\n" ∧
        (HandsOver prompt (before ++ (manifestLines manifest ++
            lit "\n\nFILE-LEVEL SEMANTIC REPORTS:\n" ++ fileReports fileReviews)) ↔
          899 + byteLen goal + byteLen gatesText + byteLen (manifestLines manifest) +
            byteLen (fileReports fileReviews) ≤ maxPromptArgBytes)) := by
  refine ⟨fun git maxFiles chunkBytes allowBinary manifest chunks h chunk hc => ?_,
    fun filePath chunkReviews prompt h => file_synthesis_handed_over_iff hgoal hgates h,
    fun manifest fileReviews prompt h => final_synthesis_handed_over_iff hgoal hgates h⟩
  obtain ⟨htext, hfiles⟩ := isText_buildReviewChunks h chunk hc
  exact chunk_handed_over_iff hgoal hgates htext hfiles chunks.length

/-- A candidate that changes one text file. -/
def oneFileGit (diff : Str) : ReviewGit where
  changedNames := .ok [lit "a.txt"]
  isBinaryChange _ := .ok false
  rawMetadata _ := .ok []
  summaryMetadata _ := .ok []
  fileDiff _ := .ok diff

/-- The gate of that candidate. -/
def passedGate : GateResult where
  command    := lit "make test"
  returncode := 0
  stdout     := []
  stderr     := []

def parserReview : ReviewResult where
  verdict := lit "pass"
  summary := lit "Parses the header."

/-- The shard of a changed file and both syntheses are handed over whole. -/
theorem evidence_handed_over_oneFile :
    ∃ chunk, buildReviewChunks (oneFileGit (lit "+parse\n")) 512 60000 false =
        .ok ([lit "a.txt"], [chunk]) ∧
      (∃ before,
        finalChunkPrompt (lit "Add a parser") chunk.text [passedGate] chunk.files chunk.index 1 =
          .ok (before ++ chunk.text ++ lit "\n") ∧
        HandsOver (before ++ chunk.text ++ lit "\n") (before ++ chunk.text)) ∧
      (∃ before prompt,
        fileSynthesisPrompt (lit "Add a parser") [passedGate] (lit "a.txt") [parserReview] =
          .ok prompt ∧
        HandsOver prompt (before ++ (lit "a.txt" ++ lit "\n\nSHARD SEMANTIC SUMMARIES:\n" ++
          lit "- shard 1: Parses the header."))) ∧
      ∃ before prompt,
        finalSynthesisPrompt (lit "Add a parser") [passedGate] [lit "a.txt"]
            [(lit "a.txt", parserReview)] = .ok prompt ∧
        HandsOver prompt (before ++ (lit "- a.txt" ++ lit "\n\nFILE-LEVEL SEMANTIC REPORTS:\n" ++
          lit "- a.txt: Parses the header.")) := by
  have hgates : formatGates [passedGate] = .ok (lit "- make test: exit=0 timeout=False\n") := by
    decide +kernel
  have hbuild : buildReviewChunks (oneFileGit (lit "+parse\n")) 512 60000 false =
      .ok ([lit "a.txt"], [⟨1, [lit "a.txt"], chunkHeader (lit "a.txt") 1 1 ++
        lit "+parse\n"⟩]) := by
    decide +kernel
  obtain ⟨hshard, hfile, hfinal⟩ := evidence_handed_over_iff (isText_lit "Add a parser") hgates
  refine ⟨_, hbuild, ?_, ?_, ?_⟩
  · obtain ⟨before, hprompt, hiff⟩ := hshard _ 512 60000 false _ _ hbuild _ List.mem_cons_self
    exact ⟨before, hprompt, hiff.mpr (by decide +kernel)⟩
  · obtain ⟨before, -, hiff⟩ := hfile (lit "a.txt") [parserReview] _ rfl
    exact ⟨before, _, rfl, hiff.mpr (by decide +kernel)⟩
  · obtain ⟨before, -, hiff⟩ := hfinal [lit "a.txt"] [(lit "a.txt", parserReview)] _ rfl
    exact ⟨before, _, rfl, hiff.mpr (by decide +kernel)⟩

/-- Under the largest accepted shard size, a diff of 119950 bytes that is not
split is one shard, and its end is cut off on the way to the reviewer. -/
theorem shard_cut {diff : Str} (hdiff : byteLen diff = 119950) (htext : isText diff = true)
    (hpiece : splitText diff 119957 = [diff]) :
    ∃ chunk, buildReviewChunks (oneFileGit diff) 512 120000 false =
        .ok ([lit "a.txt"], [chunk]) ∧
      ∃ before,
        finalChunkPrompt (lit "Add a file") chunk.text [] chunk.files chunk.index 1 =
          .ok (before ++ chunk.text ++ lit "\n") ∧
        ¬ HandsOver (before ++ chunk.text ++ lit "\n") (before ++ chunk.text) := by
  have hgates : formatGates [] = .ok (lit "No explicit gates were run.") := by decide +kernel
  have hlabel : displayPath (lit "a.txt") = lit "a.txt" := by decide +kernel
  have hprobe : byteLen (chunkHeader (lit "a.txt") 999999 999999) = 43 := by decide +kernel
  have hheader : byteLen (chunkHeader (lit "a.txt") 1 1) = 33 := by decide +kernel
  have hne : diff ≠ [] := by
    rintro rfl
    cases hdiff
  have hbuild : buildReviewChunks (oneFileGit diff) 512 120000 false =
      .ok ([displayPath (lit "a.txt")], [⟨1, [displayPath (lit "a.txt")],
        chunkHeader (displayPath (lit "a.txt")) 1 1 ++ diff⟩]) :=
    buildReviewChunks_line rfl (by decide) rfl rfl hne htext (by rw [hlabel]; exact isText_lit _)
      (by rw [hdiff]; decide) (by rw [hlabel, hprobe]; decide)
      (by rw [hlabel, hprobe]; exact hpiece) (by rw [hlabel, hheader, hdiff]; decide)
  rw [hlabel] at hbuild
  obtain ⟨hchunk, hfiles⟩ := isText_buildReviewChunks hbuild _ (List.mem_singleton_self _)
  obtain ⟨before, hprompt, hiff⟩ := chunk_handed_over_iff (isText_lit "Add a file")
    hgates hchunk hfiles 1
  refine ⟨_, hbuild, before, hprompt, fun h => ?_⟩
  have hfits := hiff.mp h
  rw [byteLen_append, hheader, hdiff] at hfits
  exact absurd hfits (by unfold maxPromptArgBytes; omega)

/-- An accepted configuration and a candidate whose evidence is cut off. -/
theorem long_line_cut :
    AcceptedChunkBytes 120000 ∧
      ∃ chunk, buildReviewChunks (oneFileGit (List.replicate 119950 (.scalar 'x'))) 512 120000
          false = .ok ([lit "a.txt"], [chunk]) ∧
        ∃ before,
          finalChunkPrompt (lit "Add a file") chunk.text [] chunk.files chunk.index 1 =
            .ok (before ++ chunk.text ++ lit "\n") ∧
          ¬ HandsOver (before ++ chunk.text ++ lit "\n") (before ++ chunk.text) :=
  ⟨⟨by decide, by decide⟩, shard_cut (byteLen_replicate _ _) (isText_replicate rfl _)
    (splitText_replicate (n := 119949) rfl (by decide))⟩

end OmarchyYolo
