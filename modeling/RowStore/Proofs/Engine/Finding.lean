import RowStore.Proofs.Condition.Typing
import RowStore.Proofs.Engine.Bindings
import RowStore.Proofs.Engine.Denoting
import RowStore.Proofs.Engine.Insertion
import RowStore.Proofs.Engine.Rewriting
import RowStore.Proofs.Engine.Targeting

/-!
Literals that find what was stored with them. A literal is compared with a column as the value that the
column stores for it, so that the rows that were stored with it meet the comparison; and as all rows follow
the schema of their table, none of the others makes the comparison fail.
-/

namespace RowStore

variable {schema : Schema} {position : Nat} {column : Column} {literal : Literal} {value : Value}
  {name : String}

/-- A row that is built from expressions has for each literal the value that its column stores. -/
theorem stored?_of_buildRow {exprs : List Expr} {row : Row} (built : buildRow schema exprs = .ok row)
    (declared : schema.columns[position]? = some column)
    (given : exprs[position]? = some (.literal literal)) :
    ∃ value, literal.stored? column.type = some value ∧ row[position]? = some value := by
  obtain ⟨_, each⟩ := buildRow_eq_ok built
  have here := Outcome.getElem?_of_mapM each position
  have pair : (exprs.zip schema.columns)[position]? = some (.literal literal, column) :=
    List.getElem?_zip_eq_some.mpr ⟨given, declared⟩
  rw [pair] at here
  obtain ⟨value, present, stored⟩ := Option.map_eq_some_iff.mp here.symm
  have stored : (literal.store column).mapError EngineError.eval = .ok value := stored.symm
  exact ⟨value, Literal.store_eq_ok_iff.mp (Outcome.mapError_eq_ok_iff.mp stored), present⟩

/-- The condition that a column has a value. -/
def Predicate.equality (position : Nat) (value : Value) : Predicate :=
  .compare .eq position (.literal value)

/-- The rows that meet an equality with a value are those that have it. -/
theorem Predicate.accepts_equality (plain : value.isNull = false) (row : Row) :
    (equality position value).accepts row = decide (row[position]? = some value) := by
  have met : (equality position value).test row = .ok true ↔ row[position]? = some value := by
    rw [equality, test, Outcome.bind_eq_ok_iff, Row.valueAt]
    cases row[position]? with
    | none => simp
    | some found =>
      simp only [Operand.valueIn, bind, Except.bind, Outcome.mapError_eq_ok_iff,
        Value.compareWith_eq_ok_true_iff, Except.ok.injEq, exists_eq_left', Option.some.injEq]
      exact ⟨fun same => same.1, fun same => ⟨same, same ▸ plain⟩⟩
  rw [Bool.eq_iff_iff, decide_eq_true_iff, ← met, accepts]
  cases (equality position value).test row <;> simp [Except.toOption]

/-- A column and a value that it stores are of one type. -/
theorem Predicate.typed_equality (declared : schema.columns[position]? = some column)
    (fits : value.fits column.type = true) (plain : value.isNull = false) :
    (equality position value).Typed schema := by
  have same : value.kind = column.type.kind :=
    ((value.fits_iff column.type).mp fits).resolve_left (by simp [plain])
  refine List.forall_mem_singleton.mpr (.inr ?_)
  rw [Operand.kindIn, Operand.kindIn, declared, same]
  rfl

namespace Schema

/-- A table finds each of its columns by name. -/
theorem columnOf_of_sameName
    (distinct : schema.columns.Pairwise fun first second => Text.fold first.name ≠ Text.fold second.name)
    (declared : schema.columns[position]? = some column)
    (named : Text.sameName column.name name = true) :
    schema.columnOf (.column none name) = .ok position := by
  refine columnOf_of_named? (named?_table fun other => ⟨?_, ?_⟩)
  · rintro ⟨second, present, same⟩
    rw [Text.sameName_iff] at same named
    exact index_unique distinct present declared (same.trans named.symm)
  · rintro rfl
    exact ⟨column, declared, named⟩

end Schema

namespace Engine

variable {engine next : Engine} {disk after : Disk} {table message : String} {rows : List (List Expr)}
  {heap : HeapFile}

/-- A query for all columns of a table finds the rows that meet its condition, if each row can be tested. -/
theorem run_star_of_tested {condition : Option Expr} {predicate : Predicate}
    (handled : engine.handle table = .ok (schema, heap)) (readable : heap.Readable)
    (compiled : engine.compileWhere schema condition = .ok predicate)
    (tested : ∀ row ∈ heap.rows.map Prod.snd, ∃ verdict, predicate.test row = .ok verdict) :
    engine.run ⟨[.all], .table table none, condition⟩ =
      .ok ⟨schema, (heap.rows.map Prod.snd).filter predicate.accepts⟩ := by
  rw [run_star_table rfl, scanTable_eq handled readable]
  simp only [Relation.labelled, compiled, bind, Except.bind, Relation.filter, keepRows_of_tested tested]
  rfl

/-- An insertion that succeeds has added its rows to those of the table. -/
theorem exists_of_insert (sound : ∀ heap, engine.heaps.get? table = some heap → heap.Sound)
    (inserted : (execute (.insert table rows)).runOn (engine, disk) = (.ok message, next, after)) :
    ∃ schema heap grown built, engine.handle table = .ok (schema, heap) ∧
      rows.mapM (buildRow schema) = .ok built ∧ next.handle table = .ok (schema, grown) ∧
      (grown.rows.map Prod.snd).Perm (built ++ heap.rows.map Prod.snd) := by
  have inserts := insertsRows rows disk sound
  rw [show (insert table rows).runOn (engine, disk) = _ from inserted] at inserts
  generalize answered : Except.ok message = answer at inserts
  cases inserts with
  | unknown => cases answered
  | rejected => cases answered
  | worked schema heap built result grown after handled converted stores =>
    obtain ⟨known, present⟩ := (handle_eq_ok_iff _ _ _ _).mp handled
    cases result with
    | error error => cases answered
    | ok _ =>
      refine ⟨schema, heap, grown, built, handled, converted, ?_,
        stores.rows_perm (sound heap present) rfl⟩
      exact (handle_eq_ok_iff _ _ _ _).mpr
        ⟨known, (HeapRegistry.get?_insert _ _ _ _).trans (if_pos rfl)⟩

theorem compileWhere_of_stored? (engine : Engine) (located : schema.columnOf (.column none name) = .ok position)
    (declared : schema.columns[position]? = some column)
    (stored : literal.stored? column.type = some value) :
    ∀ condition ∈ [Expr.compare .eq (.column none name) (.literal literal),
      .compare .eq (.literal literal) (.column none name)],
      engine.compileWhere schema (some condition) = .ok (.equality position value) := by
  have compared := schema.compareLiteral_of_stored? .eq located declared stored
  intro condition member
  rw [compileWhere]
  simp only [List.mem_cons, List.not_mem_nil, or_false] at member
  rcases member with rfl | rfl
  · rw [compile, Schema.compileComparison, compared]
    rfl
  · rw [compile, Schema.compileComparison, Operator.mirrored, compared]
    rfl

/-- An engine that is opened with an empty catalog has no tables. -/
theorem Opened.bare (opened : Opened engine) (empty : ∀ key : String, engine.catalog.tables[key]? = none) :
    engine.Bare := by
  intro key
  have agrees : (engine.registered key).1 = (engine.registered key).2 := opened.agrees key
  have none : (engine.registered key).1 = none := empty key
  exact Prod.ext none (agrees.symm.trans none)

theorem Bare.agrees (bare : engine.Bare) (key : String) : engine.AgreesOn key := by
  rw [AgreesOn, bare key]

/-- The columns of a table have names of their own. -/
theorem Bare.distinct (bare : engine.Bare) (attempts : List Attempt)
    (known : (engine.reach attempts).catalog.get? table = some schema) :
    schema.columns.Pairwise fun first second => Text.fold first.name ≠ Text.fold second.name := by
  have none (key : String) : engine.catalog.tables[key]? = none := congrArg Prod.fst (bare key)
  have lawful : Catalog.Lawful engine.catalog.tables := by
    refine ⟨fun key found present => ?_, fun key found present => ?_⟩ <;>
      cases (none key).symm.trans present
  exact Schema.pairwise_of_check ((lawful_reach lawful attempts).checked _ schema known)

/-- The comparison of a column with a literal that it can store, on whichever side the literal stands, finds
the rows that have the value in question. -/
theorem run_equality (typed : engine.Typed) (readable : engine.Each HeapFile.Readable)
    (handled : engine.handle table = .ok (schema, heap))
    (located : schema.columnOf (.column none name) = .ok position)
    (declared : schema.columns[position]? = some column) (plain : literal ≠ .null)
    (stored : literal.stored? column.type = some value) :
    ∀ condition ∈ [Expr.compare .eq (.column none name) (.literal literal),
      .compare .eq (.literal literal) (.column none name)],
      engine.run ⟨[.all], .table table none, some condition⟩ =
        .ok ⟨schema, (heap.rows.map Prod.snd).filter fun row => row[position]? = some value⟩ := by
  intro condition member
  have compiled := engine.compileWhere_of_stored? located declared stored condition member
  have unmarked := Literal.isNull_of_stored? plain stored
  have oneType : (Predicate.equality position value).Typed schema :=
    Predicate.typed_equality declared (Literal.fits_of_stored? stored) unmarked
  have tested : ∀ row ∈ heap.rows.map Prod.snd,
      ∃ verdict, (Predicate.equality position value).test row = .ok verdict := by
    intro row member
    obtain ⟨entry, among, rfl⟩ := List.mem_map.mp member
    have admits := heap.admits_of_mem_rows among
    rw [typed _ _ _ handled] at admits
    rw [compileWhere] at compiled
    exact exists_test_of_compile compiled oneType admits
  rw [run_star_of_tested handled (readable.handle handled) compiled tested,
    List.filter_congr fun row _ => Predicate.accepts_equality unmarked row]

/-- A query for all of a table finds all of its rows. -/
theorem run_all (readable : engine.Each HeapFile.Readable)
    (handled : engine.handle table = .ok (schema, heap)) :
    engine.run ⟨[.all], .table table none, none⟩ = .ok ⟨schema, heap.rows.map Prod.snd⟩ := by
  have compiled : engine.compileWhere schema none = .ok .always := by rw [compileWhere]
  have kept : (heap.rows.map Prod.snd).filter Predicate.always.accepts = heap.rows.map Prod.snd :=
    List.filter_eq_self.mpr fun _ _ => rfl
  rw [run_star_of_tested handled (readable.handle handled) compiled fun _ _ => ⟨true, rfl⟩, kept]

/-- What was stored with a literal is found by that literal: on an engine that was empty at first, whatever
statements were run and whatever other rows the table holds, right after an insertion the comparison of the
column with the literal, on either side, gives exactly the rows with the value that was stored, among them
the one that was inserted. -/
theorem stored_literal_found (bare : engine.Bare) (attempts : List Attempt)
    (inserted : (execute (.insert table rows)).runOn (engine.reach attempts, disk) =
      (.ok message, next, after))
    {exprs : List Expr} (member : exprs ∈ rows)
    (known : (engine.reach attempts).catalog.get? table = some schema)
    (declared : schema.columns[position]? = some column)
    (given : exprs[position]? = some (.literal literal)) (plain : literal ≠ .null)
    (named : Text.sameName column.name name = true) :
    ∃ row value built before relation, buildRow schema exprs = .ok row ∧
      literal.stored? column.type = some value ∧ row[position]? = some value ∧
      rows.mapM (buildRow schema) = .ok built ∧
      (engine.reach attempts).run ⟨[.all], .table table none, none⟩ = .ok before ∧
      (∀ condition ∈ [Expr.compare .eq (.column none name) (.literal literal),
          .compare .eq (.literal literal) (.column none name)],
        next.run ⟨[.all], .table table none, some condition⟩ = .ok relation) ∧
      relation.schema = schema ∧ row ∈ relation.rows ∧
      relation.rows.Perm ((built ++ before.rows).filter fun row => row[position]? = some value) := by
  have each (attempts : List Attempt) :
      (engine.reach attempts).Each fun heap => heap.Sound ∧ heap.Readable :=
    Each.reach HeapFile.lasting_readable bare.each attempts
  have readable (attempts : List Attempt) : (engine.reach attempts).Each HeapFile.Readable :=
    fun key heap present => (each attempts key heap present).2
  obtain ⟨found, heap, grown, built, handled, converted, handledNext, perm⟩ :=
    exists_of_insert (fun heap present => (each attempts _ heap present).1) inserted
  obtain rfl : schema = found :=
    Option.some.inj (known.symm.trans ((handle_eq_ok_iff _ _ _ _).mp handled).1)
  obtain ⟨row, converts⟩ := Outcome.exists_of_mapM_eq_ok converted member
  obtain ⟨value, stored, present⟩ := stored?_of_buildRow converts declared given
  have located : schema.columnOf (.column none name) = .ok position :=
    Schema.columnOf_of_sameName (bare.distinct attempts known) declared named
  -- the insertion is one more statement, so that what is known of all engines reached holds after it too
  obtain rfl : engine.reach (attempts ++ [⟨.insert table rows, disk⟩]) = next := by
    rw [reach, List.foldl_append]
    exact congrArg (fun outcome => outcome.2.1) inserted
  refine ⟨row, value, built, _, _, converts, stored, present, converted, run_all (readable _) handled,
    run_equality (typed_reach bare.agrees _) (readable _) handledNext located declared plain stored, rfl,
    ?among, perm.filter _⟩
  case among =>
    rw [List.mem_filter, perm.mem_iff, decide_eq_true_iff]
    exact ⟨List.mem_append_left _ (Outcome.mem_of_mapM_eq_ok converted member converts), present⟩

/-- A number too large for its column, behind a negative zero in a table on a disk. -/
theorem stored_literal_found_infinity :
    let attempt : Attempt := ⟨.createTable "t" [⟨"a", "FLOAT", none⟩], .empty⟩
    let rows : List (List Expr) := [[.literal (.number "-0")], [.literal (.number "1e99")]]
    inDirectory.Bare ∧ ∃ message next after relation,
      (execute (.insert "t" rows)).runOn (inDirectory.reach [attempt], .empty) =
        (.ok message, next, after) ∧
      next.run ⟨[.all], .table "t" none,
        some (.compare .eq (.literal (.number "1e99")) (.column none "a"))⟩ = .ok relation ∧
      ∃ row ∈ relation.rows, row[0]? = some (.float ⟨0x7F800000⟩) := by
  intro attempt rows
  have bare : inDirectory.Bare := opened_inDirectory.bare fun key => by simp [inDirectory]
  have succeeds : ((execute (.insert "t" rows)).runOn (inDirectory.reach [attempt], .empty)).1.isOk = true := by
    decide +kernel
  rcases ran : (execute (.insert "t" rows)).runOn (inDirectory.reach [attempt], .empty) with
    ⟨result, next, after⟩
  rw [ran] at succeeds
  cases result with
  | error error => cases succeeds
  | ok message =>
    have known : (inDirectory.reach [attempt]).catalog.get? "t" = some ⟨"t", [.ofType "a" .float]⟩ := by
      decide +kernel
    have declared : [Column.ofType "a" .float][0]? = some (.ofType "a" .float) := rfl
    have given : [Expr.literal (.number "1e99")][0]? = some (.literal (.number "1e99")) := rfl
    have named : Text.sameName (Column.ofType "a" .float).name "a" = true := by decide +kernel
    have infinite : Literal.stored? (.number "1e99") .float = some (.float ⟨0x7F800000⟩) := by
      decide +kernel
    obtain ⟨row, value, _, _, relation, _, stored, present, _, _, found, _, member, _⟩ :=
      stored_literal_found bare [attempt] ran (List.mem_cons_of_mem _ List.mem_cons_self) known declared
        given (by decide) named
    cases infinite.symm.trans stored
    exact ⟨bare, message, next, after, relation, rfl, found _ (List.mem_cons_of_mem _ List.mem_cons_self),
      row, member, present⟩

end Engine

end RowStore
