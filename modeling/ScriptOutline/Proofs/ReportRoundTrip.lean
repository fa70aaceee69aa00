/-
**Reports are read back from their text.**

A record is written as one member per field that has a value, and read by looking each field up by
its name.  No name comes twice, so that every field is found again, and a field without a value is
found missing; no value that is written for a field is null.  What is put together of parts that are
read back is therefore read back itself, from variables and parameters up to whole reports.  Counts
have to fit a word of 64 bits, as they do in the program.

Main definitions:

* `Json.Keeps` — a value is read back from the way it is written;
* `Json.rowMembers` — the members of a field with or without a value;
* `ReadsBack` — a value is read back from its text;
* `Parameter.FitsWord`, …, `LintReport.FitsWord` — the counts of a record fit a word.

Main results:

* `Json.fields?_rows` — the fields of a record are found again;
* `Json.keeps_list`, `Json.optional?_map` — lists and values that may be missing;
* `Parameter.keeps`, `Variable.keeps`, `Routine.keeps`, `Finding.keeps` — the records;
* `reports_readBack` — **reports, and their parts, are read back from their text**.
-/

import ScriptOutline.Proofs.JsonText

set_option relaxedAutoImplicit false
set_option autoImplicit false

namespace ScriptOutline

namespace Json

variable {α : Type}

/-! ### Values that are read back -/

/-- A value is read back from the way it is written, which is not null. -/
structure Keeps (write : α → Json) (read : Json → Option α) (a : α) : Prop where
  exact : IsExact (write a)
  ne_null : write a ≠ .null
  read_write : read (write a) = some a

theorem keeps_string (s : String) : Keeps .string asString? s :=
  ⟨.string s, by simp, rfl⟩

theorem keeps_bool (b : Bool) : Keeps .bool asBool? b :=
  ⟨.bool b, by simp, rfl⟩

theorem keeps_count {n : Nat} (h : n < UInt64.size) : Keeps count asCount? n :=
  ⟨.number n, by simp [count], by simp [count, asCount?, h]⟩

theorem keeps_version (v : Int32) : Keeps (fun v : Int32 => .number v.toInt) asVersion? v := by
  have hrange : (Int32.minValue.toInt ≤ v.toInt && v.toInt ≤ Int32.maxValue.toInt) = true := by
    rw [Bool.and_eq_true, decide_eq_true_iff, decide_eq_true_iff]
    exact ⟨v.minValue_le_toInt, v.toInt_le⟩
  exact ⟨.number v.toInt, by simp, by simp only [asVersion?, hrange, if_true, Int32.ofInt_toInt]⟩

/-- A choice is read back if its name leads to it. -/
theorem keeps_choice {name : α → String} {choices : List α} {a : α}
    (h : choices.find? (fun choice => name choice = name a) = some a) :
    Keeps (fun a => .string (name a)) (asChoice? name choices) a :=
  ⟨.string (name a), by simp, by simp [asChoice?, asName?, h]⟩

/-- A list of values that are read back is read back. -/
theorem keeps_list {write : α → Json} {read : Json → Option α} {items : List α}
    (h : ∀ a ∈ items, Keeps write read a) :
    Keeps (fun items => .array (items.map write)) (asList? read) items where
  exact := by
    refine .array fun v hv => ?_
    obtain ⟨a, ha, rfl⟩ := List.mem_map.1 hv
    exact (h a ha).exact
  ne_null := by simp
  read_write := by
    have hitems : (items.map write).mapM read = some items := by
      induction items with
      | nil => rfl
      | cons a rest ih =>
          rw [List.forall_mem_cons] at h
          simp [h.1.read_write, ih h.2]
    exact hitems

/-- So is a value that may be missing. -/
theorem optional?_map {write : α → Json} {read : Json → Option α} {o : Option α}
    (h : ∀ a, o = some a → Keeps write read a) : optional? read (o.map write) = some o := by
  cases o with
  | none => rfl
  | some a =>
      obtain ⟨-, hnull, hread⟩ := h a rfl
      rw [Option.map_some, optional?]
      · rw [hread, Option.map_some]
      · exact hnull

theorem optional?_orNull {write : α → Json} {read : Json → Option α} {o : Option α}
    (h : ∀ a, o = some a → Keeps write read a) :
    optional? read (some (orNull write o)) = some o := by
  have hmap := optional?_map h
  cases o with
  | none => rfl
  | some a => exact hmap

theorem isExact_orNull {write : α → Json} {read : Json → Option α} {o : Option α}
    (h : ∀ a, o = some a → Keeps write read a) : IsExact (orNull write o) := by
  cases o with
  | none => exact .null
  | some a => exact (h a rfl).exact

/-! ### Records -/

/-- The members of a field with or without a value. -/
def rowMembers : String × Option Json → List (String × Json)
  | (key, some v) => [(key, v)]
  | (_, none) => []

theorem member_eq (key : String) (v : Json) : member key v = rowMembers (key, some v) := rfl

theorem memberIf_eq (key : String) (write : α → Json) (o : Option α) :
    memberIf key write o = rowMembers (key, o.map write) := by
  cases o <;> rfl

theorem only?_rows {rows : List (String × Option Json)} (h : (rows.map Prod.fst).Nodup)
    {key : String} {o : Option Json} (hrow : (key, o) ∈ rows) :
    only? key (rows.flatMap rowMembers) = some o := by
  -- among the members of the rows only those of this one have its key
  have hfilter : (rows.flatMap rowMembers).filter (·.1 = key) = rowMembers (key, o) := by
    induction rows with
    | nil => simp at hrow
    | cons row rest ih =>
        obtain ⟨key', o'⟩ := row
        rw [List.map_cons, List.nodup_cons] at h
        have hrest : key ∉ rest.map Prod.fst →
            (rest.flatMap rowMembers).filter (·.1 = key) = [] := by
          intro hnot
          rw [List.filter_eq_nil_iff]
          rintro ⟨k, v⟩ hmem
          obtain ⟨⟨k', o''⟩, hin, hrow'⟩ := List.mem_flatMap.1 hmem
          have hk : k = k' := by
            cases o'' <;> simp [rowMembers] at hrow'
            exact hrow'.1
          simp only [decide_eq_true_eq]
          rintro rfl
          exact hnot (List.mem_map.2 ⟨_, hin, hk.symm⟩)
        rw [List.flatMap_cons, List.filter_append]
        rcases List.mem_cons.1 hrow with heq | hmem
        · obtain ⟨rfl, rfl⟩ := Prod.mk.inj heq
          rw [hrest h.1, List.append_nil, List.filter_eq_self]
          cases o <;> simp [rowMembers]
        · have hne : key' ≠ key := by
            rintro rfl
            exact h.1 (List.mem_map.2 ⟨_, hmem, rfl⟩)
          rw [ih h.2 hmem]
          cases o' <;> simp [rowMembers, hne]
  rw [only?, hfilter]
  cases o <;> rfl

/-- The fields of a record are found again. -/
theorem fields?_rows {keys : List String} (hnodup : keys.Nodup)
    {rows : List (String × Option Json)} (hkeys : rows.map Prod.fst = keys) :
    fields? keys (.object (rows.flatMap rowMembers)) = some (rows.map Prod.snd) := by
  subst hkeys
  -- along the fields, each looked up among the members of all
  have hall : ∀ part : List (String × Option Json), (∀ row ∈ part, row ∈ rows) →
      (part.map Prod.fst).mapM (only? · (rows.flatMap rowMembers)) = some (part.map Prod.snd) := by
    intro part
    induction part with
    | nil => exact fun _ => rfl
    | cons row rest ih =>
        intro hpart
        rw [List.forall_mem_cons] at hpart
        simp [only?_rows hnodup hpart.1, ih hpart.2]
  exact hall rows fun _ hrow => hrow

theorem isExact_rows {rows : List (String × Option Json)}
    (h : ∀ row ∈ rows, ∀ v, row.2 = some v → IsExact v) :
    IsExact (.object (rows.flatMap rowMembers)) := by
  refine .object ?_
  rintro ⟨key, v⟩ hmem
  obtain ⟨⟨key', o⟩, hrow, hmember⟩ := List.mem_flatMap.1 hmem
  cases o with
  | none => simp [rowMembers] at hmember
  | some v' =>
      simp only [rowMembers, List.mem_singleton, Prod.mk.injEq] at hmember
      rw [hmember.2]
      exact h _ hrow v' rfl

/-- The value of a field with or without a value. -/
theorem isExact_of_map {write : α → Json} {read : Json → Option α} {o : Option α}
    (h : ∀ a, o = some a → Keeps write read a) (v : Json) (hv : o.map write = some v) :
    IsExact v := by
  obtain ⟨a, ha, rfl⟩ := Option.map_eq_some_iff.1 hv
  exact (h a ha).exact

theorem isExact_of_some {v w : Json} (h : IsExact v) (hv : some v = some w) : IsExact w :=
  Option.some.inj hv ▸ h

@[simp] theorem required?_some (read : Json → Option α) (v : Json) :
    required? read (some v) = read v := rfl

/-- One step of a reader that is read back. -/
theorem bind_of_some {β : Type} {x : Option α} {a : α} (hx : x = some a) {f : α → Option β}
    {b : Option β} (hf : f a = b) : (x >>= f) = b := by
  rw [hx, ← hf]
  rfl

/-- A record is read back if it is read from its fields. -/
theorem keeps_record {write : α → Json} {read : Json → Option α} {a : α}
    (keys : List String) (rows : List (String × Option Json)) (hnodup : keys.Nodup)
    (hkeys : rows.map Prod.fst = keys) (hwrite : write a = .object (rows.flatMap rowMembers))
    (hexact : ∀ row ∈ rows, ∀ v, row.2 = some v → IsExact v)
    (hread : ∀ v, v.fields? keys = some (rows.map Prod.snd) → read v = some a) :
    Keeps write read a where
  exact := hwrite ▸ isExact_rows hexact
  ne_null := by simp [hwrite]
  read_write := hread _ (hwrite ▸ fields?_rows hnodup hkeys)

end Json

open Json (Keeps count keeps_string keeps_bool keeps_count keeps_version keeps_choice keeps_list
  keeps_record bind_of_some member_eq memberIf_eq optional?_map optional?_orNull rowMembers
  isExact_of_map isExact_of_some isExact_orNull)

/-! ### Parameters -/

theorem DefaultValue.keeps (d : DefaultValue) : Keeps toJson ofJson? d := by
  refine keeps_record ["kind", "text"]
    [("kind", some (.string d.kind.name)), ("text", some (.string d.text))]
    (by decide) rfl rfl ?_ ?_
  · simp only [List.forall_mem_cons]
    exact ⟨fun _ => isExact_of_some (.string _), fun _ => isExact_of_some (.string _), by simp⟩
  · intro v hv
    obtain ⟨kind, text⟩ := d
    cases kind <;> simp [ofJson?, hv, Json.asString?, DefaultKind.name]

/-- The place of a parameter fits a word. -/
def Parameter.FitsWord (p : Parameter) : Prop :=
  p.position < UInt64.size

instance (p : Parameter) : Decidable p.FitsWord :=
  inferInstanceAs (Decidable (p.position < UInt64.size))

theorem Parameter.keeps {p : Parameter} (h : p.FitsWord) : Keeps toJson ofJson? p := by
  have hdefault : ∀ d, p.defaultValue = some d → Keeps DefaultValue.toJson DefaultValue.ofJson? d :=
    fun d _ => d.keeps
  have hhint : ∀ hint, p.typeHint = some hint → Keeps .string Json.asString? hint :=
    fun hint _ => keeps_string hint
  refine keeps_record keys
    [("name", some (.string p.name)), ("is_by_ref", some (.bool p.byReference)),
      ("is_optional", some (.bool p.optional)),
      ("default", p.defaultValue.map DefaultValue.toJson),
      ("type_hint", p.typeHint.map .string), ("is_variadic", some (.bool p.variadic)),
      ("position", some (count p.position))] (by decide) rfl ?_ ?_ ?_
  · simp [toJson, member_eq, memberIf_eq]
  · simp only [List.forall_mem_cons]
    exact ⟨fun _ => isExact_of_some (.string _), fun _ => isExact_of_some (.bool _),
      fun _ => isExact_of_some (.bool _), isExact_of_map hdefault, isExact_of_map hhint,
      fun _ => isExact_of_some (.bool _), fun _ => isExact_of_some (.number _), by simp⟩
  · intro v hv
    simp [ofJson?, hv, optional?_map hdefault, optional?_map hhint, (keeps_count h).read_write,
      Json.asString?, Json.asBool?]

/-- A limit on arguments fits a word. -/
def ArgLimit.FitsWord : ArgLimit → Prop
  | .count n => n < UInt64.size
  | .variadic => True

instance : (limit : ArgLimit) → Decidable limit.FitsWord
  | .count n => inferInstanceAs (Decidable (n < UInt64.size))
  | .variadic => inferInstanceAs (Decidable True)

theorem ArgLimit.keeps {limit : ArgLimit} (h : limit.FitsWord) : Keeps toJson ofJson? limit := by
  cases limit with
  | count n =>
      have hread := (keeps_count h).read_write
      refine ⟨.object ?_, by simp [toJson], ?_⟩
      · simp [Json.member, Json.IsExact.number]
      · exact congrArg (Option.map ArgLimit.count) hread
  | variadic => exact ⟨.string _, by simp [toJson], by decide⟩

/-! ### Variables and spans -/

/-- A position fits words. -/
def Position.FitsWord (p : Position) : Prop :=
  p.line < UInt64.size ∧ p.column < UInt64.size

instance (p : Position) : Decidable p.FitsWord :=
  inferInstanceAs (Decidable (p.line < UInt64.size ∧ p.column < UInt64.size))

/-- The place of a variable fits words. -/
def Variable.FitsWord (v : Variable) : Prop :=
  v.position.FitsWord

instance (v : Variable) : Decidable v.FitsWord :=
  inferInstanceAs (Decidable v.position.FitsWord)

theorem Scope.keeps (scope : Scope) :
    Keeps (fun scope => .string scope.keyword)
      (Json.asChoice? keyword [.static, .local, .global]) scope :=
  keeps_choice (by cases scope <;> decide)

theorem Variable.keeps {x : Variable} (h : x.FitsWord) : Keeps toJson ofJson? x := by
  have hhint : ∀ hint, x.typeHint = some hint → Keeps .string Json.asString? hint :=
    fun hint _ => keeps_string hint
  refine keeps_record keys
    [("name", some (.string x.name)), ("scope", some (.string x.scope.keyword)),
      ("has_initializer", some (.bool x.hasInitializer)),
      ("declaration_line", some (count x.position.line)),
      ("declaration_character", some (count x.position.column)),
      ("type_hint", x.typeHint.map .string)] (by decide) rfl ?_ ?_ ?_
  · simp [toJson, member_eq, memberIf_eq]
  · simp only [List.forall_mem_cons]
    exact ⟨fun _ => isExact_of_some (.string _), fun _ => isExact_of_some (.string _),
      fun _ => isExact_of_some (.bool _), fun _ => isExact_of_some (.number _),
      fun _ => isExact_of_some (.number _), isExact_of_map hhint, by simp⟩
  · intro v hv
    simp [ofJson?, hv, optional?_map hhint, x.scope.keeps.read_write, (keeps_count h.1).read_write,
      (keeps_count h.2).read_write, Json.asString?, Json.asBool?]

/-- The ends of a span fit words. -/
def Span.FitsWord (s : Span) : Prop :=
  s.start.FitsWord ∧ s.stop.FitsWord

instance (s : Span) : Decidable s.FitsWord :=
  inferInstanceAs (Decidable (s.start.FitsWord ∧ s.stop.FitsWord))

theorem Span.keeps {s : Span} (h : s.FitsWord) : Keeps toJson ofJson? s := by
  refine keeps_record keys
    [("start_line", some (count s.start.line)), ("start_character", some (count s.start.column)),
      ("end_line", some (count s.stop.line)), ("end_character", some (count s.stop.column))]
    (by decide) rfl rfl ?_ ?_
  · simp only [List.forall_mem_cons]
    exact ⟨fun _ => isExact_of_some (.number _), fun _ => isExact_of_some (.number _),
      fun _ => isExact_of_some (.number _), fun _ => isExact_of_some (.number _), by simp⟩
  · intro v hv
    simp [ofJson?, hv, (keeps_count h.1.1).read_write, (keeps_count h.1.2).read_write,
      (keeps_count h.2.1).read_write, (keeps_count h.2.2).read_write]

/-! ### Routines -/

/-- The counts of a routine and of its parts fit words. -/
structure Routine.FitsWord (r : Routine) : Prop where
  parameters : ∀ p ∈ r.parameters, p.FitsWord
  statics : ∀ x ∈ r.vars.statics, x.FitsWord
  locals : ∀ x ∈ r.vars.locals, x.FitsWord
  globals : ∀ x ∈ r.vars.globals, x.FitsWord
  minArgs : r.minArgs < UInt64.size
  maxArgs : r.maxArgs.FitsWord
  span : r.span.FitsWord

theorem BodyKind.keeps (kind : BodyKind) :
    Keeps (fun kind => .string kind.name) (Json.asChoice? name [.block, .arrow]) kind :=
  keeps_choice (by cases kind <;> decide)

theorem Routine.keeps {r : Routine} (h : r.FitsWord) : Keeps toJson ofJson? r := by
  have htext : ∀ (o : Option String) s, o = some s → Keeps .string Json.asString? s :=
    fun _ s _ => keeps_string s
  have hvars : ∀ xs : List Variable, (∀ x ∈ xs, x.FitsWord) →
      Keeps (fun xs => .array (xs.map Variable.toJson)) (Json.asList? Variable.ofJson?) xs :=
    fun xs hxs => keeps_list fun x hx => Variable.keeps (hxs x hx)
  have hparameters : Keeps (fun ps => .array (ps.map Parameter.toJson))
      (Json.asList? Parameter.ofJson?) r.parameters :=
    keeps_list fun p hp => Parameter.keeps (h.parameters p hp)
  have hversion := keeps_version r.version
  refine keeps_record keys
    [("name", some (.string r.name)),
      ("parameters", some (.array (r.parameters.map Parameter.toJson))),
      ("static_variables", some (.array (r.vars.statics.map Variable.toJson))),
      ("local_variables", some (.array (r.vars.locals.map Variable.toJson))),
      ("global_variables", some (.array (r.vars.globals.map Variable.toJson))),
      ("min_params", some (count r.minArgs)), ("max_params", some r.maxArgs.toJson),
      ("return_type", r.returnType.map .string), ("is_variadic", some (.bool r.variadic)),
      ("location", some r.span.toJson), ("documentation", r.documentation.map .string),
      ("version", some (.number r.version.toInt)),
      ("body_kind", some (.string r.bodyKind.name)), ("class_name", r.className.map .string),
      ("is_static", some (.bool r.isStatic)), ("parse_error", r.parseError.map .string)]
    (by decide) rfl ?_ ?_ ?_
  · simp [toJson, member_eq, memberIf_eq]
  · simp only [List.forall_mem_cons]
    exact ⟨fun _ => isExact_of_some (.string _), fun _ => isExact_of_some hparameters.exact,
      fun _ => isExact_of_some (hvars _ h.statics).exact,
      fun _ => isExact_of_some (hvars _ h.locals).exact,
      fun _ => isExact_of_some (hvars _ h.globals).exact, fun _ => isExact_of_some (.number _),
      fun _ => isExact_of_some (ArgLimit.keeps h.maxArgs).exact, isExact_of_map (htext _),
      fun _ => isExact_of_some (.bool _), fun _ => isExact_of_some (Span.keeps h.span).exact,
      isExact_of_map (htext _), fun _ => isExact_of_some (.number _),
      fun _ => isExact_of_some (.string _), isExact_of_map (htext _),
      fun _ => isExact_of_some (.bool _), isExact_of_map (htext _), by simp⟩
  · intro v hv
    -- in the order in which the reader asks for the fields
    refine bind_of_some hv ?_
    refine bind_of_some (keeps_string r.name).read_write ?_
    refine bind_of_some hparameters.read_write ?_
    refine bind_of_some (hvars _ h.statics).read_write ?_
    refine bind_of_some (hvars _ h.locals).read_write ?_
    refine bind_of_some (hvars _ h.globals).read_write ?_
    refine bind_of_some (keeps_count h.minArgs).read_write ?_
    refine bind_of_some (ArgLimit.keeps h.maxArgs).read_write ?_
    refine bind_of_some (optional?_map (htext r.returnType)) ?_
    refine bind_of_some (keeps_bool r.variadic).read_write ?_
    refine bind_of_some (Span.keeps h.span).read_write ?_
    refine bind_of_some (optional?_map (htext r.documentation)) ?_
    refine bind_of_some hversion.read_write ?_
    refine bind_of_some r.bodyKind.keeps.read_write ?_
    refine bind_of_some (optional?_map (htext r.className)) ?_
    refine bind_of_some (keeps_bool r.isStatic).read_write ?_
    exact bind_of_some (optional?_map (htext r.parseError)) rfl

/-! ### Findings -/

/-- The place of a finding fits words. -/
def Finding.FitsWord (f : Finding) : Prop :=
  f.line < UInt64.size ∧ f.column < UInt64.size

instance (f : Finding) : Decidable f.FitsWord :=
  inferInstanceAs (Decidable (f.line < UInt64.size ∧ f.column < UInt64.size))

theorem Rule.keeps (rule : Rule) :
    Keeps (fun rule => .string rule.name) (Json.asChoice? name all) rule :=
  keeps_choice (by cases rule <;> decide)

theorem Severity.keeps (severity : Severity) :
    Keeps (fun severity => .string severity.name) (Json.asChoice? name all) severity :=
  keeps_choice (by cases severity <;> decide)

theorem Finding.keeps {f : Finding} (h : f.FitsWord) : Keeps toJson ofJson? f := by
  refine keeps_record keys
    [("rule", some (.string f.rule.name)), ("message", some (.string f.message)),
      ("file", some (.string f.file)), ("line", some (count f.line)),
      ("character", some (count f.column)), ("severity", some (.string f.severity.name))]
    (by decide) rfl rfl ?_ ?_
  · simp only [List.forall_mem_cons]
    exact ⟨fun _ => isExact_of_some (.string _), fun _ => isExact_of_some (.string _),
      fun _ => isExact_of_some (.string _), fun _ => isExact_of_some (.number _),
      fun _ => isExact_of_some (.number _), fun _ => isExact_of_some (.string _), by simp⟩
  · intro v hv
    simp [ofJson?, hv, f.rule.keeps.read_write, f.severity.keeps.read_write,
      (keeps_count h.1).read_write, (keeps_count h.2).read_write, Json.asString?]

/-! ### Reports -/

/-- The counts of the routines of a file fit words. -/
def FileOutline.FitsWord (f : FileOutline) : Prop :=
  ∀ r ∈ f.routines, r.FitsWord

theorem FileOutline.keeps {f : FileOutline} (h : f.FitsWord) : Keeps toJson ofJson? f := by
  have hroutines : Keeps (fun rs => .array (rs.map Routine.toJson)) (Json.asList? Routine.ofJson?)
      f.routines := keeps_list fun r hr => Routine.keeps (h r hr)
  refine keeps_record ["path", "functions"]
    [("path", some (.string f.path)), ("functions", some (.array (f.routines.map Routine.toJson)))]
    (by decide) rfl rfl ?_ ?_
  · simp only [List.forall_mem_cons]
    exact ⟨fun _ => isExact_of_some (.string _), fun _ => isExact_of_some hroutines.exact, by simp⟩
  · intro v hv
    simp [ofJson?, hv, hroutines.read_write, Json.asString?]

/-- The counts of a report on the routines of files fit words. -/
structure OutlineReport.FitsWord (r : OutlineReport) : Prop where
  filesScanned : r.filesScanned < UInt64.size
  files : ∀ f ∈ r.files, f.FitsWord

theorem OutlineReport.keeps {r : OutlineReport} (h : r.FitsWord) : Keeps toJson ofJson? r := by
  have hfiles : Keeps (fun fs => .array (fs.map FileOutline.toJson))
      (Json.asList? FileOutline.ofJson?) r.files :=
    keeps_list fun f hf => FileOutline.keeps (h.files f hf)
  refine keeps_record ["version", "files_scanned", "files"]
    [("version", some (.string r.version)), ("files_scanned", some (count r.filesScanned)),
      ("files", some (.array (r.files.map FileOutline.toJson)))] (by decide) rfl rfl ?_ ?_
  · simp only [List.forall_mem_cons]
    exact ⟨fun _ => isExact_of_some (.string _), fun _ => isExact_of_some (.number _),
      fun _ => isExact_of_some hfiles.exact, by simp⟩
  · intro v hv
    simp [ofJson?, hv, hfiles.read_write, (keeps_count h.filesScanned).read_write, Json.asString?]

/-- The counts of a report on a position fit words. -/
structure HoverReport.FitsWord (r : HoverReport) : Prop where
  line : r.line < UInt64.size
  column : r.column < UInt64.size
  routine : ∀ f, r.routine = some f → f.FitsWord

theorem HoverReport.keeps {r : HoverReport} (h : r.FitsWord) : Keeps toJson ofJson? r := by
  have hroutine : ∀ f, r.routine = some f → Keeps Routine.toJson Routine.ofJson? f :=
    fun f hf => Routine.keeps (h.routine f hf)
  refine keeps_record ["version", "path", "line", "character", "function"]
    [("version", some (.string r.version)), ("path", some (.string r.path)),
      ("line", some (count r.line)), ("character", some (count r.column)),
      ("function", some (Json.orNull Routine.toJson r.routine))] (by decide) rfl rfl ?_ ?_
  · simp only [List.forall_mem_cons]
    exact ⟨fun _ => isExact_of_some (.string _), fun _ => isExact_of_some (.string _),
      fun _ => isExact_of_some (.number _), fun _ => isExact_of_some (.number _),
      fun _ => isExact_of_some (isExact_orNull hroutine), by simp⟩
  · intro v hv
    simp [ofJson?, hv, optional?_orNull hroutine, (keeps_count h.line).read_write,
      (keeps_count h.column).read_write, Json.asString?]

/-- The counts of a report on findings fit words. -/
structure LintReport.FitsWord (r : LintReport) : Prop where
  filesScanned : r.filesScanned < UInt64.size
  errors : r.errors < UInt64.size
  warnings : r.warnings < UInt64.size
  findings : ∀ f ∈ r.findings, f.FitsWord

theorem LintReport.keeps {r : LintReport} (h : r.FitsWord) : Keeps toJson ofJson? r := by
  have hfindings : Keeps (fun fs => .array (fs.map Finding.toJson)) (Json.asList? Finding.ofJson?)
      r.findings := keeps_list fun f hf => Finding.keeps (h.findings f hf)
  refine keeps_record ["version", "files_scanned", "passed", "errors", "warnings", "diagnostics"]
    [("version", some (.string r.version)), ("files_scanned", some (count r.filesScanned)),
      ("passed", some (.bool r.passed)), ("errors", some (count r.errors)),
      ("warnings", some (count r.warnings)),
      ("diagnostics", some (.array (r.findings.map Finding.toJson)))] (by decide) rfl rfl ?_ ?_
  · simp only [List.forall_mem_cons]
    exact ⟨fun _ => isExact_of_some (.string _), fun _ => isExact_of_some (.number _),
      fun _ => isExact_of_some (.bool _), fun _ => isExact_of_some (.number _),
      fun _ => isExact_of_some (.number _), fun _ => isExact_of_some hfindings.exact, by simp⟩
  · intro v hv
    simp [ofJson?, hv, hfindings.read_write, (keeps_count h.filesScanned).read_write,
      (keeps_count h.errors).read_write, (keeps_count h.warnings).read_write, Json.asString?,
      Json.asBool?]

/-! ### The text of a report -/

/-- A value is read back from its text. -/
def ReadsBack {α : Type} (write : α → Json) (read : Json → Option α) (a : α) : Prop :=
  (Json.parse? (jsonText (write a))).bind read = some a

theorem readsBack_of_keeps {α : Type} {write : α → Json} {read : Json → Option α} {a : α}
    (h : Keeps write read a) : ReadsBack write read a := by
  rw [ReadsBack, Json.parse?_jsonText h.exact, Option.bind_some]
  exact h.read_write

/--
Every report is read back from its text as it was, and so are the routines, parameters, default
values, limits, variables and findings that it is made of, whatever strings and lists they hold and
whichever of their fields have a value.
-/
theorem reports_readBack :
    (∀ r : OutlineReport, r.FitsWord → ReadsBack OutlineReport.toJson OutlineReport.ofJson? r) ∧
    (∀ r : HoverReport, r.FitsWord → ReadsBack HoverReport.toJson HoverReport.ofJson? r) ∧
    (∀ r : LintReport, r.FitsWord → ReadsBack LintReport.toJson LintReport.ofJson? r) ∧
    (∀ r : Routine, r.FitsWord → ReadsBack Routine.toJson Routine.ofJson? r) ∧
    (∀ p : Parameter, p.FitsWord → ReadsBack Parameter.toJson Parameter.ofJson? p) ∧
    (∀ d : DefaultValue, ReadsBack DefaultValue.toJson DefaultValue.ofJson? d) ∧
    (∀ limit : ArgLimit, limit.FitsWord → ReadsBack ArgLimit.toJson ArgLimit.ofJson? limit) ∧
    (∀ x : Variable, x.FitsWord → ReadsBack Variable.toJson Variable.ofJson? x) ∧
    (∀ f : Finding, f.FitsWord → ReadsBack Finding.toJson Finding.ofJson? f) :=
  ⟨fun _ h => readsBack_of_keeps (OutlineReport.keeps h),
    fun _ h => readsBack_of_keeps (HoverReport.keeps h),
    fun _ h => readsBack_of_keeps (LintReport.keeps h),
    fun _ h => readsBack_of_keeps (Routine.keeps h),
    fun _ h => readsBack_of_keeps (Parameter.keeps h),
    fun d => readsBack_of_keeps d.keeps,
    fun _ h => readsBack_of_keeps (ArgLimit.keeps h),
    fun _ h => readsBack_of_keeps (Variable.keeps h),
    fun _ h => readsBack_of_keeps (Finding.keeps h)⟩

/-- A parameter whose default value has quotes and a control character in it. -/
def quotedParameter : Parameter :=
  ⟨"a", true, true, some ⟨.constant, "\"\\\t\x01é\""⟩, none, false, 0⟩

/-- A variable of that function. -/
def hintedVariable : Variable :=
  ⟨"x", .static, true, ⟨1, 2⟩, some "Integer"⟩

/-- A function with that parameter and that variable, and a version below zero. -/
def quotedRoutine : Routine :=
  ⟨"F", [quotedParameter], ⟨[hintedVariable], [], []⟩, 0, .count 1, some "T", false,
    ⟨⟨0, 0⟩, ⟨2, 1⟩⟩, none, -7, .arrow, some "C", true, none⟩

/-- A finding about that function. -/
def quotedFinding : Finding :=
  ⟨.duplicateFunction, "C.F is already declared at line 1", "a\n.ahk", 1, 1, .error⟩

theorem fitsWord_quotedRoutine : quotedRoutine.FitsWord := by
  constructor <;> decide

/-- A routine with escapes, fields without a value, and both kinds of choices. -/
theorem reports_readBack_quotedRoutine :
    let outline : OutlineReport := .ofFiles [⟨"a.ahk", [quotedRoutine]⟩]
    let hover : HoverReport := .at "a.ahk" 1 1 (some quotedRoutine)
    let lint : LintReport := .ofFiles [[quotedFinding]]
    (outline.FitsWord ∧ ReadsBack OutlineReport.toJson OutlineReport.ofJson? outline) ∧
    (hover.FitsWord ∧ ReadsBack HoverReport.toJson HoverReport.ofJson? hover) ∧
    (lint.FitsWord ∧ ReadsBack LintReport.toJson LintReport.ofJson? lint) ∧
    (quotedRoutine.FitsWord ∧ ReadsBack Routine.toJson Routine.ofJson? quotedRoutine) ∧
    (quotedParameter.FitsWord ∧ ReadsBack Parameter.toJson Parameter.ofJson? quotedParameter) ∧
    ((ArgLimit.count 1).FitsWord ∧ ReadsBack ArgLimit.toJson ArgLimit.ofJson? (.count 1)) ∧
    (hintedVariable.FitsWord ∧ ReadsBack Variable.toJson Variable.ofJson? hintedVariable) ∧
    (quotedFinding.FitsWord ∧ ReadsBack Finding.toJson Finding.ofJson? quotedFinding) := by
  intro outline hover lint
  have houtline : outline.FitsWord := by
    refine ⟨by decide, ?_⟩
    simp only [outline, OutlineReport.ofFiles, List.forall_mem_singleton, FileOutline.FitsWord]
    exact fitsWord_quotedRoutine
  have hhover : hover.FitsWord :=
    ⟨by decide, by decide, fun f hf => Option.some.inj hf ▸ fitsWord_quotedRoutine⟩
  have hparameter : quotedParameter.FitsWord := by decide
  have hlimit : (ArgLimit.count 1).FitsWord := by decide
  have hvariable : hintedVariable.FitsWord := by decide
  have hfinding : quotedFinding.FitsWord := by decide
  have hlint : lint.FitsWord := ⟨by decide, by decide, by decide, by
    simp only [lint, LintReport.ofFiles, List.flatten_singleton, List.forall_mem_singleton]
    exact hfinding⟩
  obtain ⟨h₁, h₂, h₃, h₄, h₅, -, h₇, h₈, h₉⟩ := reports_readBack
  exact ⟨⟨houtline, h₁ _ houtline⟩, ⟨hhover, h₂ _ hhover⟩, ⟨hlint, h₃ _ hlint⟩,
    ⟨fitsWord_quotedRoutine, h₄ _ fitsWord_quotedRoutine⟩, ⟨hparameter, h₅ _ hparameter⟩,
    ⟨hlimit, h₇ _ hlimit⟩, ⟨hvariable, h₈ _ hvariable⟩, ⟨hfinding, h₉ _ hfinding⟩⟩

end ScriptOutline
