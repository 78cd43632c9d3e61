import OmarchyYolo.Lib.JsonRoundTrip

/-!
# OmarchyYolo.Lib.JsonLoads — `json.loads`

A whole text is one value with white space around it. What `json.dumps` writes
of an object is such a text, under any codec of floats when the object has none.
-/

namespace PyJson

open Py

variable {F G : Type}

/-! ## Values without floats -/

mutual

/-- The value with its floats replaced. -/
def Json.mapFloat (f : G → F) : Json G → Json F
  | .null => .null
  | .bool b => .bool b
  | .int n => .int n
  | .float x => .float (f x)
  | .str s => .str s
  | .arr xs => .arr (xs.mapFloat f)
  | .obj ms => .obj (ms.mapFloat f)

def Elems.mapFloat (f : G → F) : Elems G → Elems F
  | .nil => .nil
  | .cons x xs => .cons (x.mapFloat f) (xs.mapFloat f)

def Members.mapFloat (f : G → F) : Members G → Members F
  | .nil => .nil
  | .cons k x ms => .cons k (x.mapFloat f) (ms.mapFloat f)

end

mutual

def Json.FloatFree : Json G → Prop
  | .float _ => False
  | .arr xs => xs.FloatFree
  | .obj ms => ms.FloatFree
  | _ => True

def Elems.FloatFree : Elems G → Prop
  | .nil => True
  | .cons x xs => x.FloatFree ∧ xs.FloatFree

def Members.FloatFree : Members G → Prop
  | .nil => True
  | .cons _ x ms => x.FloatFree ∧ ms.FloatFree

end

theorem Members.floatFree_insertSorted {k : Str} {x : Json G} {ms : Members G} (hx : x.FloatFree)
    (hms : ms.FloatFree) : (ms.insertSorted k x).FloatFree := by
  induction ms with
  | nil => exact ⟨hx, trivial⟩
  | cons k' x' ms ih =>
    rw [Members.insertSorted]
    split_ifs
    · exact ⟨hx, hms⟩
    · exact ⟨hms.1, ih hms.2⟩

mutual

theorem Json.floatFree_sortKeys : ∀ {v : Json G}, v.FloatFree → v.sortKeys.FloatFree
  | .null, _ | .bool _, _ | .int _, _ | .str _, _ => trivial
  | .arr _, h => Elems.floatFree_sortKeys h
  | .obj _, h => Members.floatFree_sortKeys h

theorem Elems.floatFree_sortKeys : ∀ {xs : Elems G}, xs.FloatFree → xs.sortKeys.FloatFree
  | .nil, _ => trivial
  | .cons _ _, h => ⟨Json.floatFree_sortKeys h.1, Elems.floatFree_sortKeys h.2⟩

theorem Members.floatFree_sortKeys : ∀ {ms : Members G}, ms.FloatFree → ms.sortKeys.FloatFree
  | .nil, _ => trivial
  | .cons _ _ _, h =>
    Members.floatFree_insertSorted (Json.floatFree_sortKeys h.1) (Members.floatFree_sortKeys h.2)

end

/-! ## Texts -/

variable [PyFloat F] [PyFloat G]

mutual

theorem Json.dumps_mapFloat (st : Style) (f : G → F) : ∀ {v : Json G}, v.FloatFree →
    dumps st (v.mapFloat f) = dumps st v
  | .null, _ | .bool true, _ | .bool false, _ | .int _, _ | .str _, _ => rfl
  | .arr .nil, _ => rfl
  | .arr (.cons x xs), h => by
    rw [Json.mapFloat, Elems.mapFloat, dumps, dumps, Json.dumps_mapFloat st f h.1,
      Elems.dumps_mapFloat st f h.2]
  | .obj .nil, _ => rfl
  | .obj (.cons k x ms), h => by
    rw [Json.mapFloat, Members.mapFloat, dumps, dumps, Json.dumps_mapFloat st f h.1,
      Members.dumps_mapFloat st f h.2]

theorem Elems.dumps_mapFloat (st : Style) (f : G → F) : ∀ {xs : Elems G}, xs.FloatFree →
    dumpsElems st (xs.mapFloat f) = dumpsElems st xs
  | .nil, _ => rfl
  | .cons x xs, h => by
    rw [Elems.mapFloat, dumpsElems, dumpsElems, Json.dumps_mapFloat st f h.1,
      Elems.dumps_mapFloat st f h.2]

theorem Members.dumps_mapFloat (st : Style) (f : G → F) : ∀ {ms : Members G}, ms.FloatFree →
    dumpsMembers st (ms.mapFloat f) = dumpsMembers st ms
  | .nil, _ => rfl
  | .cons k x ms, h => by
    rw [Members.mapFloat, dumpsMembers, dumpsMembers, Json.dumps_mapFloat st f h.1,
      Members.dumps_mapFloat st f h.2]

end

/-- `json.loads(text)`; `none` when it raises `JSONDecodeError`. -/
def loads (text : Str) : Option (Json F) :=
  match rawDecode (skipWs text) with
  | some (value, rest) => if skipWs rest = [] then some value else none
  | none => none

/-- An object that has been written can be read. -/
theorem loads_dumps_obj (st : Style) (ms : Members F) :
    loads (dumps st (.obj ms)) = some ((Json.obj ms).readBack st) := by
  have hstart : skipWs (dumps st (.obj ms)) = dumps st (.obj ms) := by
    cases ms <;> rfl
  have hdecode := rawDecode_dumps_obj st ms []
  rw [List.append_nil] at hdecode
  unfold loads
  rw [hstart, hdecode]
  rfl

/-- An object without floats can be read under any codec. -/
theorem exists_loads_dumps_obj (st : Style) {ms : Members G} (h : ms.FloatFree) :
    ∃ value : Json F, loads (dumps st (.obj ms)) = some value := by
  have hsame : dumps st (Json.obj (ms.mapFloat fun _ => (PyFloat.nan : F))) = dumps st (.obj ms) :=
    Json.dumps_mapFloat st _ (v := .obj ms) h
  rw [← hsame]
  exact ⟨_, loads_dumps_obj st _⟩

end PyJson
