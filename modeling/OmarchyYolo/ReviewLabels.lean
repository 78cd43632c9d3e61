import Mathlib.Data.List.Nodup
import OmarchyYolo.Lib.FsDecode
import OmarchyYolo.Lib.JsonAscii
import OmarchyYolo.ReviewPaths

/-!
# OmarchyYolo.ReviewLabels — one label for each changed file

The review names a changed file by a label: in the manifest, in the map from the
files to the reviews of their shards, and in the header of every shard.

* `label` — the label of a path, given by its bytes;
* `label_injective`, `label_single_line`: the label tells the path, on one line;
* `labels_separate`: what follows for a review.
-/

namespace OmarchyYolo

open Py PyJson

/-- The label of a path. -/
def label (path : List UInt8) : Str := displayPath (fsdecode path)

/-- The paths of `git diff --name-only -z`. -/
def changedPaths (raw : List UInt8) : List (List UInt8) := (raw.splitOn 0).filter (· ≠ [])

/-! ## Labels -/

theorem label_injective : Function.Injective label := by
  intro p q h
  have hdecoded : ∀ path, FsDecoded (fsdecode path) := fun path bits => fsdecode_no_high path bits
  exact fsdecode_injective (displayPath_injective (hdecoded p) (hdecoded q) h)

theorem isLineBreak_of_isPrintable {c : PyChar} (h : isPrintable c = true) :
    isLineBreak c = false := by
  have hascii : ∀ n < 127, isPrintable (.scalar (Char.ofNat n)) = true →
      isLineBreak (.scalar (Char.ofNat n)) = false := by
    decide
  cases c with
  | surrogate low bits => cases h
  | scalar c =>
    have hlt : c.toNat < 127 := by
      simp only [isPrintable, Bool.and_eq_true, decide_eq_true_eq] at h
      exact h.2
    rw [← Char.ofNat_toNat c] at h ⊢
    exact hascii c.toNat hlt h

theorem isPrintable_of_isPlainPathChar {c : PyChar} (h : isPlainPathChar c = true) :
    isPrintable c = true := by
  cases c with
  | surrogate low bits => cases h
  | scalar c =>
    simp only [isPlainPathChar, Bool.or_eq_true, Bool.and_eq_true, decide_eq_true_eq,
      beq_iff_eq] at h
    simp only [isPrintable, Bool.and_eq_true, decide_eq_true_eq]
    rcases h with (((((((h | h) | h) | h) | h) | h) | h) | h) | h
    -- a capital, a small letter or a digit
    · exact ⟨le_trans (by decide) h.1, lt_of_le_of_lt h.2 (by decide)⟩
    · exact ⟨le_trans (by decide) h.1, lt_of_le_of_lt h.2 (by decide)⟩
    · exact ⟨le_trans (by decide) h.1, lt_of_le_of_lt h.2 (by decide)⟩
    all_goals
      rw [h]
      decide

/-- A label is written in printable characters. -/
theorem displayPath_printable (path : Str) : ∀ c ∈ displayPath path, isPrintable c = true := by
  intro c hc
  rw [displayPath] at hc
  split_ifs at hc with hplain
  · simp only [isPlainPromptPath, Bool.and_eq_true, List.all_eq_true, Bool.or_eq_true,
      beq_iff_eq] at hplain
    rcases hplain.1.2 c hc with hchar | hblank
    · exact isPrintable_of_isPlainPathChar hchar
    · rw [hblank]
      decide
  · have hmark : ∀ c ∈ lit "json:", isPrintable c = true := by decide
    rcases List.mem_append.mp hc with hc | hc
    · exact hmark c hc
    · exact dumpsStr_printable rfl path c hc

theorem displayPath_ne_nil (path : Str) : displayPath path ≠ [] := by
  rw [displayPath]
  split_ifs with hplain
  · rintro rfl
    cases hplain
  · exact List.cons_ne_nil _ _

/-- `str.splitlines` finds one line in a label. -/
theorem label_single_line (path : List UInt8) : splitLines (label path) = [label path] :=
  splitLines_eq_singleton (displayPath_ne_nil _) fun c hc =>
    isLineBreak_of_isPrintable (displayPath_printable _ c hc)

/-! ## Headers -/

/-- Two texts that are continued alike: when both continuations start with a character that
occurs as often in the one as in the other, they start at the same place. -/
theorem append_inj_of_count {α : Type} [DecidableEq α] {x : α} {a b s t : List α}
    (hs : s.head? = some x) (ht : t.head? = some x) (hcount : s.count x = t.count x)
    (h : a ++ s = b ++ t) : a = b := by
  -- what one text has beyond the other would start with the character, and hold none of it
  have hnil : ∀ {c u v : List α}, u = c ++ v → u.head? = some x → u.count x = v.count x →
      c = [] := by
    intro c u v hu hhead hcount
    cases c with
    | nil => rfl
    | cons d c =>
      have hd : d = x := by
        rw [hu] at hhead
        exact Option.some.inj hhead
      rw [hu, hd, List.cons_append, List.count_cons_self, List.count_append] at hcount
      omega
  rcases List.append_eq_append_iff.mp h with ⟨c, hb, hs'⟩ | ⟨c, ha, ht'⟩
  · rw [hb, hnil hs' hs hcount, List.append_nil]
  · rw [ha, hnil ht' ht hcount.symm, List.append_nil]

theorem isPrintable_decimal {n : Nat} {c : PyChar} (h : c ∈ decimal n) :
    isPrintable c = true ∧ c ≠ .scalar ' ' := by
  obtain ⟨d, hd, rfl⟩ := List.mem_map.mp h
  have hdigit := Nat.isDigit_of_mem_toDigits (by decide) (by decide) hd
  simp only [Char.isDigit, Bool.and_eq_true, decide_eq_true_eq] at hdigit
  obtain ⟨hlow, hhigh⟩ := hdigit
  have hlow' : 48 ≤ d.toNat := hlow
  have hhigh' : d.toNat ≤ 57 := hhigh
  constructor
  · simp only [isPrintable, Bool.and_eq_true, decide_eq_true_eq]
    omega
  · intro heq
    cases heq
    revert hlow'
    decide

/-- What a header has after its label, and before its last line break. -/
def headerEnd (part parts : Nat) : Str :=
  lit " PART " ++ decimal part ++ lit "/" ++ decimal parts ++ lit " ====="

theorem chunkHeader_eq (label : Str) (part parts : Nat) :
    chunkHeader label part parts =
      .scalar '\n' :: ((lit "===== FILE " ++ (label ++ headerEnd part parts)) ++ lit "\n") := by
  have hend : lit " =====\n" = lit " =====" ++ lit "\n" := rfl
  have hfront : lit "\n===== FILE " = .scalar '\n' :: lit "===== FILE " := rfl
  rw [chunkHeader, headerEnd, hend, hfront]
  simp only [List.append_assoc, List.cons_append]

theorem count_headerEnd (part parts : Nat) : (headerEnd part parts).count (.scalar ' ') = 3 := by
  have hdecimal : ∀ n, (decimal n).count (.scalar ' ') = 0 := fun n =>
    List.count_eq_zero_of_not_mem fun hmem => (isPrintable_decimal hmem).2 rfl
  have hpart : (lit " PART ").count (.scalar ' ') = 2 := by decide
  have hslash : (lit "/").count (.scalar ' ') = 0 := by decide
  have hmarks : (lit " =====").count (.scalar ' ') = 1 := by decide
  rw [headerEnd, List.count_append, List.count_append, List.count_append, List.count_append,
    hdecimal, hdecimal, hpart, hslash, hmarks]

theorem headerEnd_printable (part parts : Nat) :
    ∀ c ∈ headerEnd part parts, isPrintable c = true := by
  have hpart : ∀ c ∈ lit " PART ", isPrintable c = true := by decide
  have hslash : ∀ c ∈ lit "/", isPrintable c = true := by decide
  have hmarks : ∀ c ∈ lit " =====", isPrintable c = true := by decide
  simp only [headerEnd, List.forall_mem_append]
  exact ⟨⟨⟨⟨hpart, fun c hc => (isPrintable_decimal hc).1⟩, hslash⟩,
    fun c hc => (isPrintable_decimal hc).1⟩, hmarks⟩

/-- A text starts with the header of one label only. -/
theorem chunkHeader_injective {path path' text : Str} {part parts part' parts' : Nat}
    (h : chunkHeader (displayPath path) part parts <+: text)
    (h' : chunkHeader (displayPath path') part' parts' <+: text) :
    displayPath path = displayPath path' := by
  -- a header ends at its second line break
  have hline : ∀ {p p' : Str} {m n m' n' : Nat},
      chunkHeader (displayPath p) m n <+: chunkHeader (displayPath p') m' n' →
        displayPath p = displayPath p' := by
    intro p p' m n m' n' hpre
    rw [chunkHeader_eq, chunkHeader_eq, List.cons_prefix_cons] at hpre
    have hbody : ∀ c ∈ lit "===== FILE " ++ (displayPath p' ++ headerEnd m' n'),
        isPrintable c = true := by
      have hfront : ∀ c ∈ lit "===== FILE ", isPrintable c = true := by decide
      simp only [List.forall_mem_append]
      exact ⟨hfront, displayPath_printable p', headerEnd_printable m' n'⟩
    rcases List.prefix_concat_iff.mp hpre.2 with heq | hinner
    · have hsame := List.append_cancel_left (List.append_cancel_right heq)
      have hcount := (count_headerEnd m n).trans (count_headerEnd m' n').symm
      exact append_inj_of_count rfl rfl hcount hsame
    · have hbreak : PyChar.scalar '\n' ∈ lit "===== FILE " ++ (displayPath p' ++ headerEnd m' n') :=
        hinner.subset (List.mem_append_right _ List.mem_cons_self)
      exact absurd (hbody _ hbreak) (by decide)
  rcases List.prefix_or_prefix_of_prefix h h' with hpre | hpre
  · exact hline hpre
  · exact (hline hpre).symm

/-! ## A review -/

theorem Headed.mem {label : Str} {parts part : Nat} {shards : List ReviewChunk}
    (h : Headed label parts part shards) :
    ∀ shard ∈ shards, ∃ n, chunkHeader label n parts <+: shard.text := by
  induction shards generalizing part with
  | nil => exact nofun
  | cons first shards ih =>
    intro shard hmem
    rcases List.mem_cons.mp hmem with rfl | hmem
    · exact ⟨part, h.1⟩
    · exact ih h.2 shard hmem

/-- A shard that belongs to one changed path: its file entry, the key of its review, is that
path's label, and it starts with a header of that path and of no other. -/
structure ShardOf (chunk : ReviewChunk) (path : List UInt8) : Prop where
  files_eq : chunk.files = [label path]
  headed : ∃ part parts, chunkHeader (label path) part parts <+: chunk.text
  headed_only : ∀ other part parts, chunkHeader (label other) part parts <+: chunk.text →
    other = path

theorem shardOf_of_mem {files : List (List UInt8)} {groups : List (List ReviewChunk)}
    {git : ReviewGit} {chunkBytes : Nat}
    (h : List.Forall₂ (Sharded git chunkBytes) (files.map fsdecode) groups) :
    ∀ chunk ∈ groups.flatten, ∃ path ∈ files, ShardOf chunk path := by
  induction files generalizing groups with
  | nil =>
    cases h
    exact nofun
  | cons path files ih =>
    rw [List.map_cons] at h
    cases h with
    | @cons _ shards _ groups hpath hrest =>
      intro chunk hmem
      rw [List.flatten_cons, List.mem_append] at hmem
      rcases hmem with hmem | hmem
      · obtain ⟨part, hheader⟩ := hpath.headed.mem chunk hmem
        refine ⟨path, List.mem_cons_self, hpath.fileLocal chunk hmem,
          ⟨part, shards.length, hheader⟩, ?_⟩
        intro other part' parts' hother
        exact label_injective (chunkHeader_injective hother hheader)
      · obtain ⟨own, hown, hshard⟩ := ih hrest chunk hmem
        exact ⟨own, List.mem_cons_of_mem path hown, hshard⟩

/-- Labels tell the paths of a candidate apart, each on one line; so the manifest has one entry
for each changed path, and every shard belongs to one. -/
theorem labels_separate :
    (∀ p q, label p = label q → p = q) ∧
    (∀ path, splitLines (label path) = [label path]) ∧
    ∀ (git : ReviewGit) (raw : List UInt8) (maxFiles chunkBytes : Nat) (allowBinary : Bool)
      (manifest : List Str) (chunks : List ReviewChunk),
      git.changedNames = .ok ((changedPaths raw).map fsdecode) → AcceptedChunkBytes chunkBytes →
      buildReviewChunks git maxFiles chunkBytes allowBinary = .ok (manifest, chunks) →
      manifest = (changedPaths raw).map label ∧
        ((changedPaths raw).Nodup → manifest.Nodup) ∧
        (changedPaths raw ≠ [] →
          ∀ chunk ∈ chunks, ∃ path ∈ changedPaths raw, ShardOf chunk path) := by
  refine ⟨fun p q h => label_injective h, label_single_line, ?_⟩
  intro git raw maxFiles chunkBytes allowBinary manifest chunks hnames hbytes hbuild
  obtain ⟨files, hfiles, hmanifest, -, -, hgroups⟩ := buildReviewChunks_sharded hbytes hbuild
  obtain rfl := Except.ok.inj (hnames.symm.trans hfiles)
  have hlabels : manifest = (changedPaths raw).map label := by
    rw [hmanifest, List.map_map]
    rfl
  refine ⟨hlabels, ?_, ?_⟩
  · intro hnodup
    rw [hlabels]
    exact List.Nodup.map label_injective hnodup
  · intro hne chunk hmem
    obtain ⟨groups, rfl, hsharded⟩ := hgroups (by simpa using hne)
    exact shardOf_of_mem hsharded chunk hmem

/-- The names of a candidate that adds `b.txt`, as Git writes them. -/
def addedNames : List UInt8 := [0x62, 0x2e, 0x74, 0x78, 0x74, 0]

/-- The one shard of that candidate. -/
def addedShard : ReviewChunk :=
  ⟨1, [lit "b.txt"], lit "\n===== FILE b.txt PART 1/1 =====\nnew file\n+x\n"⟩

theorem labels_separate_added :
    [lit "b.txt"] = (changedPaths addedNames).map label ∧
      ∃ path ∈ changedPaths addedNames, ShardOf addedShard path := by
  obtain ⟨hmanifest, -, hshards⟩ := labels_separate.2.2 (answeringGit addedTrees plainDiff)
    addedNames 512 60000 false [lit "b.txt"] [addedShard] (by decide +kernel)
    ⟨by decide, by decide⟩ (by decide +kernel)
  exact ⟨hmanifest, hshards (by decide) addedShard List.mem_cons_self⟩

end OmarchyYolo
