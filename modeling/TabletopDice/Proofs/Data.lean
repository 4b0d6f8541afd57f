import TabletopDice.Json
/-!
# Data — values as a reader by name sees them

Two objects are equal as data if the one has the members of the other, in whatever order they stand. A reader takes
a value apart by the names of its members. It *reads* some data as a result if it gives that result for everything that
is equal to the data (`Reads`); readers of parts make up readers of objects and lists (`reads_field`, `reads_list`).
-/
namespace TabletopDice
namespace Json

/-! ## Equal data -/

mutual

/-- **Two values are equal as data.** Objects are if they have as many members and each member of the one has an equal
member of the same name in the other. -/
def equal : Json → Json → Bool
  | .null, .null => true
  | .bool a, .bool b => a == b
  | .number m, .number n => decide (m = n)
  | .text s, .text t => s == t
  | .array items, .array others => equalItems items others
  | .object members, .object others => members.length == others.length && equalMembers members others
  | _, _ => false

/-- Two lists are equal item by item. -/
def equalItems : List Json → List Json → Bool
  | [], [] => true
  | item :: items, other :: others => equal item other && equalItems items others
  | _, _ => false

/-- Each member has an equal one among the others. -/
def equalMembers : List (String × Json) → List (String × Json) → Bool
  | [], _ => true
  | (name, value) :: members, others =>
    (match lookup? name others with
      | some other => equal value other
      | none => false) && equalMembers members others

end

-- The members of an object may stand in any order.
example : equal (.array [.object [("sides", .int 6), ("aces", .bool true)]])
    (.array [.object [("aces", .bool true), ("sides", .int 6)]]) = true := by
  cbv

theorem eq_object_of_equal {members : List (String × Json)} {json : Json} (h : equal (.object members) json = true) :
    ∃ others, json = .object others ∧ equalMembers members others = true := by
  cases json with
  | object others =>
    rw [equal, Bool.and_eq_true] at h
    exact ⟨others, rfl, h.2⟩
  | _ => simp [equal] at h

theorem eq_array_of_equal {items : List Json} {json : Json} (h : equal (.array items) json = true) :
    ∃ others, json = .array others ∧ equalItems items others = true := by
  cases json with
  | array others =>
    rw [equal] at h
    exact ⟨others, rfl, h⟩
  | _ => simp [equal] at h

theorem lookup?_of_equalMembers {name : String} {value : Json} : ∀ {members others : List (String × Json)},
    (name, value) ∈ members → equalMembers members others = true →
      ∃ other, lookup? name others = some other ∧ equal value other = true
  | (key, first) :: members, others, hmem, h => by
    rw [equalMembers, Bool.and_eq_true] at h
    rcases List.mem_cons.1 hmem with heq | hmem
    · cases heq
      cases hfound : lookup? name others with
      | none => simp [hfound] at h
      | some other => exact ⟨other, rfl, by simpa [hfound] using h.1⟩
    · exact lookup?_of_equalMembers hmem h.2

/-! ## Readers -/

/-- The whole number that a value is. -/
def int? : Json → Option Int
  | .number (.whole n) => some n
  | _ => none

/-- The truth value that a value is. -/
def bool? : Json → Option Bool
  | .bool b => some b
  | _ => none

/-- The text that a value is. -/
def text? : Json → Option String
  | .text s => some s
  | _ => none

/-- The items of an array. -/
def items? : Json → Option (List Json)
  | .array items => some items
  | _ => none

/-- The member of an object with that name. -/
def member? (name : String) : Json → Option Json
  | .object members => lookup? name members
  | _ => none

variable {α β : Type}

/-- What a member is read as. -/
def field? (name : String) (read : Json → Option α) (json : Json) : Option α := (json.member? name).bind read

/-- Nothing for the null value, and what a reader makes of any other. -/
def nullable? (read : Json → Option α) : Json → Option (Option α)
  | .null => some none
  | json => (read json).map some

/-- An array with each of its items read. -/
def listOf? (read : Json → Option α) : Json → Option (List α)
  | .array items => items.mapM read
  | _ => none

/-- **A reader that reads some data as a result**: it gives the result for all that is equal to the data. -/
def Reads (read : Json → Option α) (data : Json) (a : α) : Prop :=
  ∀ other, equal data other = true → read other = some a

theorem reads_int (n : Int) : Reads int? (.int n) n := by
  intro other h
  cases other with
  | number m =>
    rw [int, equal, decide_eq_true_eq] at h
    rw [← h]
    rfl
  | _ => simp [int, equal] at h

theorem reads_bool (b : Bool) : Reads bool? (.bool b) b := by
  intro other h
  cases other with
  | bool c =>
    rw [equal, beq_iff_eq] at h
    rw [h]
    rfl
  | _ => simp [equal] at h

theorem reads_text (s : String) : Reads text? (.text s) s := by
  intro other h
  cases other with
  | text t =>
    rw [equal, beq_iff_eq] at h
    rw [h]
    rfl
  | _ => simp [equal] at h

/-- **A member is read by its name**, wherever it stands. -/
theorem reads_field {read : Json → Option α} {name : String} {data : Json} {a : α} {members : List (String × Json)}
    (hmem : (name, data) ∈ members) (h : Reads read data a) : Reads (field? name read) (.object members) a := by
  intro other hequal
  obtain ⟨others, rfl, hmembers⟩ := eq_object_of_equal hequal
  obtain ⟨value, hvalue, hdata⟩ := lookup?_of_equalMembers hmem hmembers
  rw [field?, member?, hvalue, Option.bind_some, h value hdata]

/-- An array under a name is found by its name, item for item. -/
theorem field?_items {name : String} {items : List Json} {members : List (String × Json)} {json : Json}
    (hmem : (name, .array items) ∈ members) (h : equal (.object members) json = true) :
    ∃ others, json.field? name items? = some others ∧ equalItems items others = true := by
  obtain ⟨found, rfl, hmembers⟩ := eq_object_of_equal h
  obtain ⟨value, hvalue, hdata⟩ := lookup?_of_equalMembers hmem hmembers
  obtain ⟨others, rfl, hitems⟩ := eq_array_of_equal hdata
  exact ⟨others, by rw [field?, member?, hvalue]; rfl, hitems⟩

theorem reads_nullable {read : Json → Option α} {encode : α → Json} {value : Option α} (hnull : read .null = none)
    (h : ∀ a ∈ value, Reads read (encode a) a) : Reads (nullable? read) (orNull encode value) value := by
  intro other hequal
  cases value with
  | none =>
    cases other with
    | null => rfl
    | _ => simp [orNull, equal] at hequal
  | some a =>
    have ha := h a rfl other hequal
    cases other with
    | null =>
      rw [hnull] at ha
      cases ha
    | _ => simp only [nullable?, ha, Option.map_some]

theorem mapM_of_equalItems {read : Json → Option α} {encode : α → Json} : ∀ {values : List α} {others : List Json},
    (∀ a ∈ values, Reads read (encode a) a) → equalItems (values.map encode) others = true →
      others.mapM read = some values
  | [], [], _, _ => rfl
  | [], _ :: _, _, hequal => by simp [equalItems] at hequal
  | value :: values, [], _, hequal => by simp [equalItems] at hequal
  | value :: values, other :: others, h, hequal => by
    rw [List.map_cons, equalItems, Bool.and_eq_true] at hequal
    have hfirst := h value List.mem_cons_self other hequal.1
    have hothers := mapM_of_equalItems (fun a ha => h a (List.mem_cons_of_mem _ ha)) hequal.2
    simp [List.mapM_cons, hfirst, hothers]

theorem reads_list {read : Json → Option α} {encode : α → Json} {values : List α}
    (h : ∀ a ∈ values, Reads read (encode a) a) : Reads (listOf? read) (list encode values) values := by
  intro other hequal
  obtain ⟨others, rfl, hitems⟩ := eq_array_of_equal hequal
  exact mapM_of_equalItems h hitems

/-! ## Data that equals itself -/

theorem lookup?_eq_none {name : String} : ∀ {members : List (String × Json)},
    name ∉ members.map Prod.fst → lookup? name members = none
  | [], _ => rfl
  | (key, value) :: members, h => by
    rw [List.map_cons, List.mem_cons, not_or] at h
    rw [lookup?, lookup?_eq_none h.2]
    exact if_neg (Ne.symm h.1)

theorem lookup?_of_mem {name : String} {value : Json} : ∀ {members : List (String × Json)},
    (members.map Prod.fst).Nodup → (name, value) ∈ members → lookup? name members = some value
  | (key, first) :: members, hnodup, hmem => by
    rw [List.map_cons, List.nodup_cons] at hnodup
    rcases List.mem_cons.1 hmem with heq | hmem
    · cases heq
      have hnone : lookup? name members = none := lookup?_eq_none hnodup.1
      rw [lookup?, hnone]
      simp
    · rw [lookup?, lookup?_of_mem hnodup.2 hmem]

@[simp] theorem equal_int_self (n : Int) : equal (.int n) (.int n) = true := by simp [int, equal]

@[simp] theorem equal_bool_self (b : Bool) : equal (.bool b) (.bool b) = true := by simp [equal]

@[simp] theorem equal_text_self (s : String) : equal (.text s) (.text s) = true := by simp [equal]

theorem equalItems_self : ∀ {items : List Json}, (∀ item ∈ items, equal item item = true) → equalItems items items = true
  | [], _ => rfl
  | item :: items, h => by
    rw [equalItems, h item List.mem_cons_self, equalItems_self fun other hin => h other (List.mem_cons_of_mem _ hin)]
    rfl

@[simp] theorem equal_list_self {encode : α → Json} {values : List α}
    (h : ∀ a ∈ values, equal (encode a) (encode a) = true) : equal (list encode values) (list encode values) = true := by
  rw [list, equal]
  exact equalItems_self (List.forall_mem_map.2 h)

@[simp] theorem equal_orNull_self {encode : α → Json} {value : Option α}
    (h : ∀ a ∈ value, equal (encode a) (encode a) = true) :
    equal (orNull encode value) (orNull encode value) = true := by
  cases value with
  | none => rfl
  | some a => exact h a rfl

/-- **An object with different names equals itself** if its members do. -/
theorem equal_object_self {members : List (String × Json)} (hnodup : (members.map Prod.fst).Nodup)
    (h : ∀ member ∈ members, equal member.2 member.2 = true) : equal (.object members) (.object members) = true := by
  have hsome : ∀ some, (∀ member ∈ some, member ∈ members) → equalMembers some members = true := by
    intro some hsub
    induction some with
    | nil => rfl
    | cons member some ih =>
      have hmem := hsub member List.mem_cons_self
      rw [equalMembers, lookup?_of_mem hnodup hmem, ih fun other hin => hsub other (List.mem_cons_of_mem _ hin)]
      simp [h member hmem]
  rw [equal, hsome members fun _ hin => hin]
  simp

/-! ## Sizes -/

theorem sizeOf_lookup? {name : String} {value : Json} : ∀ {members : List (String × Json)},
    lookup? name members = some value → sizeOf value + 1 < sizeOf members
  | (key, first) :: members, h => by
    rw [lookup?] at h
    cases hlater : lookup? name members with
    | some later =>
      rw [hlater] at h
      cases h
      have hlt := sizeOf_lookup? hlater
      simp only [List.cons.sizeOf_spec]
      omega
    | none =>
      rw [hlater] at h
      by_cases hkey : key = name
      · simp only [hkey, if_true, Option.some.injEq] at h
        subst h
        simp only [List.cons.sizeOf_spec, Prod.mk.sizeOf_spec]
        omega
      · simp [hkey] at h

theorem sizeOf_member? {name : String} {json value : Json} (h : json.member? name = some value) :
    sizeOf value + 2 < sizeOf json := by
  cases json with
  | object members =>
    have hlt := sizeOf_lookup? h
    rw [object.sizeOf_spec]
    omega
  | _ => simp [member?] at h

end Json
end TabletopDice
