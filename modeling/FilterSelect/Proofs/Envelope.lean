import FilterSelect.Proofs.Json.Members
import FilterSelect.Service
import Mathlib.Data.List.Forall2

/-!
# What a response tells

A body is answered by at most one statement: the one that its request compiles to. The response says
how far it came, and its envelope is a document with nothing in it but the rows, or the two messages
of the stage that failed.

* `Executor.noting`: an executor that notes the statements it is given.
* `Compiler.statement?`: the statement of a body.
* `Row.HasLast`, `Row.IsDocument`: the document of a row, whose columns may share their names.
* `Response.IsSuccess`, `Response.IsFailure`: what a response shows from outside.
* `Answers`: the response to a body, by the stage that decides it.
* `handle_answers`: which statements are executed for a body, and what the response tells.
-/

namespace FilterSelect

/-! ## Executed statements -/

/-- An executor that answers by a function, and notes each statement that it is given. -/
def Executor.noting (answer : String → Except String (List Row)) :
    Executor (StateM (List String)) := fun sql => do
  modify (· ++ [sql])
  return answer sql

namespace Compiler

/-- The statement of a body; none when the body is no request, or the request does not compile. -/
def statement? (c : Compiler) (body : ByteArray) : Option String :=
  match Request.readBytes body with
  | .ok r => (c.compile r).toOption
  | .error _ => none

theorem statement?_eq_some_iff {c : Compiler} {body : ByteArray} {sql : String} :
    c.statement? body = some sql ↔ ∃ r, Request.readBytes body = .ok r ∧ c.compile r = .ok sql := by
  unfold statement?
  cases Request.readBytes body with
  | error e => simp
  | ok r =>
    dsimp only
    cases hcompile : c.compile r <;> simp [Except.toOption, hcompile]

/-- The response to a body when statements are answered by a function. -/
def respond (c : Compiler) (answer : String → Except String (List Row)) (body : ByteArray) :
    Response :=
  Id.run (handle body c fun sql => pure (answer sql))

/-- The statement of a body is executed once, and nothing else is. -/
theorem run_handle_noting (c : Compiler) (answer : String → Except String (List Row))
    (body : ByteArray) (noted : List String) :
    (handle body c (Executor.noting answer)).run noted =
      (c.respond answer body, noted ++ (c.statement? body).toList) := by
  unfold respond handle statement?
  cases Request.readBytes body with
  | error e =>
    rw [Option.toList_none, List.append_nil]
    rfl
  | ok r =>
    dsimp only
    unfold Request.run
    cases c.compile r with
    | error e =>
      rw [Except.toOption, Option.toList_none, List.append_nil]
      rfl
    | ok sql => rfl

end Compiler

/-! ## Envelopes -/

/-- The value is the last one that the row has under the name. -/
def Row.HasLast (row : Row) (name : String) (v : Value) : Prop :=
  ∃ before after, row = before ++ (name, v) :: after ∧ name ∉ after.map Prod.fst

/-- The document is an object with the names of the row's columns as keys, each of them once, and
under each key the last value of that name. -/
def Row.IsDocument (row : Row) (json : Json) : Prop :=
  ∃ members, json = .object members ∧ (members.map Prod.fst).Nodup ∧
    (∀ key, key ∈ members.map Prod.fst ↔ key ∈ row.map Prod.fst) ∧
    ∀ key value, (key, value) ∈ members ↔ ∃ v, row.HasLast key v ∧ value = v.toJson

/-- The response tells of rows: its envelope has five members, and no others. -/
structure Response.IsSuccess (x : Response) (r : Request) (rows : List Row) : Prop where
  isSuccess : x.isSuccess = true
  status : x.status = 200
  envelope : ∃ members count data hasJoins, x.toJson = .object members ∧
    members.Perm [
      ("success", .bool true),
      ("table", .string r.table),
      ("count", .number (.unsigned count)),
      ("data", .array data),
      ("hasJoins", .bool hasJoins)] ∧
    -- The count is a 64-bit word.
    count.toNat = min rows.length (UInt64.size - 1) ∧
    List.Forall₂ Row.IsDocument rows data ∧
    (hasJoins = true ↔ r.joins ≠ [])

/-- The response tells of a failure: its envelope has three members, and no others. -/
structure Response.IsFailure (x : Response) (userMessage devMessage : String) : Prop where
  isSuccess : x.isSuccess = false
  status : x.status = 400
  envelope : ∃ members, x.toJson = .object members ∧
    members.Perm [
      ("success", .bool false),
      ("userMessage", .string userMessage),
      ("devMessage", .string devMessage)]

namespace Row

variable {row : Row}

theorem lookup_map_toJson (row : Row) (key : String) :
    List.lookup key (row.map fun (name, v) => (name, v.toJson)) =
      (row.lookup key).map Value.toJson := by
  induction row with
  | nil => rfl
  | cons column row ih =>
    rw [List.map_cons, List.lookup_cons, List.lookup_cons, ih]
    cases key == column.1 <;> rfl

/-- The last value under a name is the first one from the end. -/
theorem hasLast_iff {name : String} {v : Value} :
    row.HasLast name v ↔ row.reverse.lookup name = some v := by
  rw [List.lookup_eq_some_iff]
  constructor
  · rintro ⟨before, after, rfl, hafter⟩
    refine ⟨after.reverse, before.reverse, by simp, ?_⟩
    intro column hcolumn
    rw [bne_iff_ne]
    rintro rfl
    exact hafter (List.mem_map_of_mem (List.mem_reverse.mp hcolumn))
  · rintro ⟨after, before, hrow, hafter⟩
    refine ⟨before.reverse, after.reverse, ?_, fun hmem => ?_⟩
    · rw [List.reverse_eq_iff.mp hrow]
      simp
    · obtain ⟨column, hcolumn, rfl⟩ := List.mem_map.mp hmem
      simpa using hafter column (List.mem_reverse.mp hcolumn)

theorem exists_hasLast_iff {name : String} :
    (∃ v, row.HasLast name v) ↔ name ∈ row.map Prod.fst := by
  simp only [hasLast_iff, ← Option.isSome_iff_exists, List.lookup_isSome_iff, List.mem_reverse,
    List.mem_map, beq_iff_eq, @eq_comm _ name]

/-- The document of a row has each name once, with its last value. -/
theorem isDocument_rowToJson (row : Row) : row.IsDocument (Response.rowToJson row) := by
  have hnodup := (Json.Members.isOrdered_ofList
    (row.map fun (name, v) => (name, v.toJson))).nodup
  have hmem : ∀ key value,
      (key, value) ∈ Json.Members.ofList (row.map fun (name, v) => (name, v.toJson)) ↔
        ∃ v, row.HasLast key v ∧ value = v.toJson := by
    intro key value
    rw [Json.Members.mem_iff_get? hnodup, Json.Members.get?_ofList, ← List.map_reverse,
      lookup_map_toJson, Option.map_eq_some_iff]
    simp only [hasLast_iff, @eq_comm _ value]
  refine ⟨_, rfl, hnodup, fun key => ?_, hmem⟩
  rw [← exists_hasLast_iff]
  constructor
  · intro hkey
    obtain ⟨⟨key, value⟩, hmember, rfl⟩ := List.mem_map.mp hkey
    obtain ⟨v, hv, -⟩ := (hmem _ _).mp hmember
    exact ⟨v, hv⟩
  · rintro ⟨v, hv⟩
    exact List.mem_map.mpr ⟨(key, v.toJson), (hmem _ _).mpr ⟨v, hv, rfl⟩, rfl⟩

end Row

namespace Response

theorem isSuccess_success (r : Request) (rows : List Row) :
    (success r.table rows r.hasJoins).IsSuccess r rows where
  isSuccess := rfl
  status := rfl
  envelope := by
    refine ⟨_, _, _, _, rfl, Json.Members.perm_ofList (by simp), ?_, ?_, ?_⟩
    · by_cases h : rows.length < UInt64.size
      · rw [UInt64.toNat_ofNatClamp_of_lt h]
        omega
      · rw [UInt64.toNat_ofNatClamp_of_le (by omega)]
        omega
    · rw [List.forall₂_map_right_iff]
      exact List.forall₂_same.mpr fun row _ => row.isDocument_rowToJson
    · simp [Request.hasJoins]

theorem isFailure_failure (userMessage devMessage : String) :
    (failure userMessage devMessage).IsFailure userMessage devMessage :=
  ⟨rfl, rfl, _, rfl, Json.Members.perm_ofList (by simp)⟩

end Response

/-! ## Responses -/

/-- The response to a body: the failure of reading it, of compiling its request or of executing the
statement, each with the messages of its stage, or the rows of the statement. -/
inductive Answers (c : Compiler) (answer : String → Except String (List Row)) (body : ByteArray) :
    Response → Prop
  | unreadable {x : Response} {e : RequestError} (hread : Request.readBytes body = .error e)
      (hx : x.IsFailure invalidRequestMessage e.message) : Answers c answer body x
  | uncompilable {x : Response} {r : Request} {e : CompileError}
      (hread : Request.readBytes body = .ok r) (hcompile : c.compile r = .error e)
      (hx : x.IsFailure uncompilableMessage e.message) : Answers c answer body x
  | rejected {x : Response} {r : Request} {sql message : String}
      (hread : Request.readBytes body = .ok r) (hcompile : c.compile r = .ok sql)
      (hanswer : answer sql = .error message) (hx : x.IsFailure rejectedMessage message) :
      Answers c answer body x
  | rows {x : Response} {r : Request} {sql : String} {rows : List Row}
      (hread : Request.readBytes body = .ok r) (hcompile : c.compile r = .ok sql)
      (hanswer : answer sql = .ok rows) (hx : x.IsSuccess r rows) : Answers c answer body x

theorem answers_respond (c : Compiler) (answer : String → Except String (List Row))
    (body : ByteArray) : Answers c answer body (c.respond answer body) := by
  unfold Compiler.respond handle
  cases hread : Request.readBytes body with
  | error e => exact .unreadable hread (Response.isFailure_failure _ _)
  | ok r =>
    dsimp only
    unfold Request.run
    cases hcompile : c.compile r with
    | error e => exact .uncompilable hread hcompile (Response.isFailure_failure _ _)
    | ok sql =>
      show Answers c answer body (Response.ofOutcome r (answer sql))
      cases hanswer : answer sql with
      | error message =>
        exact .rejected hread hcompile hanswer (Response.isFailure_failure _ _)
      | ok rows => exact .rows hread hcompile hanswer (Response.isSuccess_success r rows)

theorem Response.status_eq_iff (x : Response) :
    (x.status = 200 ↔ x.isSuccess = true) ∧ (x.status = 400 ↔ x.isSuccess = false) := by
  cases x <;> simp [status, isSuccess]

/-- A response is a success exactly when the statement of the body is answered by rows. -/
theorem Answers.isSuccess_iff {c : Compiler} {answer : String → Except String (List Row)}
    {body : ByteArray} {x : Response} (h : Answers c answer body x) : x.isSuccess = true ↔
      ∃ sql rows, c.statement? body = some sql ∧ answer sql = .ok rows := by
  simp only [Compiler.statement?_eq_some_iff]
  cases h with
  | unreadable hread hx => simp [hread, hx.isSuccess]
  | uncompilable hread hcompile hx => simp [hread, hcompile, hx.isSuccess]
  | rejected hread hcompile hanswer hx => simp [hread, hcompile, hanswer, hx.isSuccess]
  | rows hread hcompile hanswer hx => simp [hread, hcompile, hanswer, hx.isSuccess]

/-- For a body the statement of its request is executed, once, or nothing if there is none. The
response is the first failure, or the rows; it is a success, with its status, exactly when there are
rows. -/
theorem handle_answers (c : Compiler) (answer : String → Except String (List Row))
    (body : ByteArray) (noted : List String) :
    ∃ x, (handle body c (Executor.noting answer)).run noted =
        (x, noted ++ (c.statement? body).toList) ∧
      Answers c answer body x ∧
      (x.isSuccess = true ↔ ∃ sql rows, c.statement? body = some sql ∧ answer sql = .ok rows) ∧
      (x.status = 200 ↔ x.isSuccess = true) ∧ (x.status = 400 ↔ x.isSuccess = false) := by
  have hanswers := answers_respond c answer body
  exact ⟨_, c.run_handle_noting answer body noted, hanswers, hanswers.isSuccess_iff,
    Response.status_eq_iff _⟩

end FilterSelect
