import OmarchyYolo.Listings

/-!
# OmarchyYolo.RpcFrames — requests, and the lines that answer them

`_handle_client` reads a line, calls `dispatch` for it and writes a line, or another
one that says the first was too long. Both repeat the request's identifier, and only
the first is measured.

* `RpcRequest.call` — the call that a line makes; `handleClient` — what is written;
* `handleClient_fits_iff`: when the line is one that a client accepts;
* `clientLine_fits`: for the identifiers of `rpc_call` it always is.
-/

namespace OmarchyYolo

open Py PyJson

variable {F : Type} [PyFloat F]

/-! ## Requests -/

/-- A line that has been read: its length, and what `json.loads` makes of it. -/
structure RpcRequest (F : Type) where
  bytes : Nat
  value : Option (Json F)

/-- A line of UTF-8. -/
def readRequest (line : Str) : RpcRequest F := ⟨byteLen line, loads line⟩

/-- A request that is dispatched. -/
structure RpcCall (F : Type) where
  id : Json F
  method : Str
  params : Members F

/-- The call of a request; the other requests are not answered. -/
def RpcRequest.call (request : RpcRequest F) : Option (RpcCall F) :=
  if request.bytes = 0 ∨ maxRpcMessageBytes < request.bytes then none
  else
    match request.value with
    | some (.obj members) =>
      match members.get? (lit "method"), (members.get? (lit "params")).getD (.obj .nil) with
      | some (.str method), .obj params =>
        if method = [] then none
        else some ⟨(members.get? (lit "id")).getD .null, method, params⟩
      | _, _ => none
    | _ => none

/-- The line that `_handle_client` writes; `text` is `str(exc)`. -/
def handleClient (text : Exn → Str) (dispatch : Str → Members F → Except Exn (Json F))
    (request : RpcRequest F) : Option Str :=
  request.call.map fun call => rpcResponse text call.id (dispatch call.method call.params)

/-! ## Lengths -/

/-- The bytes of a result, or of the text of an error. -/
def answerBytes (text : Exn → Str) : Except Exn (Json F) → Nat
  | .ok result => jsonBytes result
  | .error exc => strBytes (text exc)

/-- The text that stands for a response that is too long. -/
def oversizedText : Str := lit "RPC response exceeds the maximum message size"

theorem strBytes_oversizedText : strBytes oversizedText = 47 := by decide +kernel

/-- An error is as long as its identifier and its text, and 28 bytes. -/
theorem byteLen_errorLine (requestId : Json F) (error : Str) :
    byteLen (rpcLine (errorResponse requestId error)) =
      28 + jsonBytes requestId + strBytes error := by
  have hkeys : strBytes (lit "id") = 4 ∧ strBytes (lit "ok") = 4 ∧ strBytes (lit "error") = 7 := by
    decide
  obtain ⟨hid, hok, herror⟩ := hkeys
  have hfalse : jsonBytes (.bool false : Json F) = 5 := rfl
  have hline : byteLen (lit "\n") = 1 := by decide
  rw [rpcLine, byteLen_append, hline]
  change jsonBytes (errorResponse requestId error) + 1 = _
  rw [errorResponse, jsonBytes_obj (List.cons_ne_nil _ _)]
  simp only [List.map_cons, List.map_nil, List.sum_cons, List.sum_nil, memberBytes, hid, hok,
    herror, hfalse, jsonBytes_str]
  omega

/-- The first line is written if it fits, and the second one unmeasured. -/
theorem byteLen_measured_le_iff {requestId response : Json F} {n : Nat}
    (hfirst : byteLen (rpcLine response) = 28 + jsonBytes requestId + n) :
    byteLen (if maxRpcMessageBytes < byteLen (rpcLine response) then
        rpcLine (errorResponse requestId oversizedText) else rpcLine response) ≤
      maxRpcMessageBytes ↔ jsonBytes requestId + min n 47 ≤ 1048548 := by
  have hmax : maxRpcMessageBytes = 1048576 := rfl
  have hsecond : byteLen (rpcLine (errorResponse requestId oversizedText)) =
      28 + jsonBytes requestId + 47 := by
    rw [byteLen_errorLine, strBytes_oversizedText]
  rw [hfirst]
  split_ifs with hlong
  · rw [hsecond]
    omega
  · rw [hfirst]
    omega

theorem byteLen_rpcResponse_le_iff (text : Exn → Str) (requestId : Json F)
    (result : Except Exn (Json F)) :
    byteLen (rpcResponse text requestId result) ≤ maxRpcMessageBytes ↔
      jsonBytes requestId + min (answerBytes text result) 47 ≤ 1048548 := by
  cases result with
  | ok result => exact byteLen_measured_le_iff (byteLen_okLine requestId result)
  | error exc => exact byteLen_measured_le_iff (byteLen_errorLine requestId (text exc))

/-- Every line written for a request is one that a client accepts, exactly when the identifier
leaves room for the result or for the text that stands for it. -/
theorem handleClient_fits_iff (text : Exn → Str)
    (dispatch : Str → Members F → Except Exn (Json F)) (request : RpcRequest F) :
    (∀ line ∈ handleClient text dispatch request, byteLen line ≤ maxRpcMessageBytes) ↔
      ∀ call ∈ request.call,
        jsonBytes call.id + min (answerBytes text (dispatch call.method call.params)) 47 ≤
          1048548 := by
  unfold handleClient
  cases request.call with
  | none => exact ⟨fun _ _ hcall => absurd hcall nofun, fun _ _ hline => absurd hline nofun⟩
  | some call =>
    have hiff := byteLen_rpcResponse_le_iff text call.id (dispatch call.method call.params)
    constructor
    · intro h other hother
      cases hother
      exact hiff.mp (h _ rfl)
    · intro h line hline
      cases hline
      exact hiff.mpr (h call rfl)

/-- For an identifier as `rpc_call` draws it, of 32 hexadecimal digits, the line always fits. -/
theorem clientLine_fits (text : Exn → Str) (digits : List (Fin 16)) (hlen : digits.length = 32)
    (result : Except Exn (Json F)) :
    byteLen (rpcResponse text (.str (digits.map hexDigit)) result) ≤ maxRpcMessageBytes := by
  have hdigit : ∀ digit : Fin 16, isBare (hexDigit digit) = true := by decide
  have hid : strBytes (digits.map hexDigit) = 34 := by
    rw [strBytes_bare, List.length_map, hlen]
    intro c hc
    obtain ⟨digit, -, rfl⟩ := List.mem_map.mp hc
    exact hdigit digit
  rw [byteLen_rpcResponse_le_iff, jsonBytes_str, hid]
  have hmin := Nat.min_le_right (answerBytes text result) 47
  omega

/-! ## A long identifier -/

/-- The members of a request whose identifier is `n` times a character of two bytes. -/
def longIdMembers (n : Nat) : Members WholeFloat :=
  .ofList [(lit "id", .str (List.replicate n (.scalar 'é'))), (lit "method", .str (lit "ping"))]

/-- The request, as a client may write it. -/
def longIdLine (n : Nat) : Str := dumps ⟨true, false⟩ (.obj (longIdMembers n))

theorem byteLen_longIdLine (n : Nat) : byteLen (longIdLine n) = 25 + n * 2 := by
  have hid := @byteLen_dumpsStr_replicate ⟨true, false⟩ (.scalar 'é') (by decide) n
  have hsize : byteSize (.scalar 'é') = 2 := by decide
  have hkeys : byteLen (dumpsStr ⟨true, false⟩ (lit "id")) = 4 ∧
      byteLen (dumpsStr ⟨true, false⟩ (lit "method")) = 8 ∧
      byteLen (dumpsStr ⟨true, false⟩ (lit "ping")) = 6 := by decide
  have hmarks : byteSize (.scalar '\x7b') = 1 ∧ byteLen (Style.keySep ⟨true, false⟩) = 1 ∧
      byteLen (Style.itemSep ⟨true, false⟩) = 1 ∧ byteLen [.scalar '\x7d'] = 1 := by decide
  rw [hsize] at hid
  simp only [longIdLine, longIdMembers, Members.ofList, dumps, dumpsMembers, byteLen_cons,
    byteLen_append, byteLen_nil, hid, hkeys, hmarks]
  omega

theorem longIdLine_call {n : Nat} (hn : n ≤ 500000) :
    (readRequest (F := WholeFloat) (longIdLine n)).call =
      some ⟨.str (List.replicate n (.scalar 'é')), lit "ping", .nil⟩ := by
  have hkeys : lit "method" ∉ ([] : List Str) ∧ lit "id" ∉ [lit "method"] := by decide
  have hread : loads (longIdLine n) = some (.obj (longIdMembers n)) := by
    rw [longIdLine, loads_dumps_obj, Json.readBack_eq]
    · exact ⟨hkeys.2, trivial, hkeys.1, trivial, trivial⟩
    · exact ⟨nofun, nofun, nofun, nofun, trivial⟩
  have hlimit : ¬ (byteLen (longIdLine n) = 0 ∨ maxRpcMessageBytes < byteLen (longIdLine n)) := by
    have hmax : maxRpcMessageBytes = 1048576 := rfl
    rw [byteLen_longIdLine, hmax]
    omega
  have hnames : (lit "id" = lit "method") = False ∧ (lit "id" = lit "params") = False ∧
      (lit "method" = lit "params") = False ∧ (lit "ping" = []) = False := by
    decide
  rw [RpcRequest.call, readRequest, if_neg hlimit, hread]
  simp only [longIdMembers, Members.ofList, Members.get?, hnames, if_false, if_true,
    Option.getD_none, Option.getD_some]

/-- A request within the limit, and the line that answers it is longer than a client accepts. -/
theorem longId_oversized : ∃ line,
    byteLen (longIdLine 200000) ≤ maxRpcMessageBytes ∧
    handleClient (fun _ => []) (fun _ _ => .ok (.obj .nil))
      (readRequest (F := WholeFloat) (longIdLine 200000)) = some line ∧
    maxRpcMessageBytes < byteLen line := by
  have hescape : (escape .wire (.scalar 'é')).length = 6 := by decide
  let id : Json WholeFloat := .str (List.replicate 200000 (.scalar 'é'))
  refine ⟨rpcResponse (fun _ => []) id (.ok (.obj .nil)), ?_, ?_,
    Nat.lt_of_not_le fun hfits => ?_⟩
  · rw [byteLen_longIdLine]
    decide
  · rw [handleClient, longIdLine_call (by decide), Option.map_some]
  · rw [byteLen_rpcResponse_le_iff, jsonBytes_str, strBytes_replicate, hescape] at hfits
    omega

end OmarchyYolo
