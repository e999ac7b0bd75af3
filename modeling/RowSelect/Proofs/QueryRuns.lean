import RowSelect.Command
import RowSelect.Proofs.AlignedColumns
import RowSelect.Proofs.CommaSeparated
import RowSelect.Proofs.Documents
import RowSelect.Proofs.RunArguments
import RowSelect.Proofs.SchemaFailures

/-!
What is printed for several queries: the results of those before the first that fails or whose rows
do not fit into a table. Each is what the query gives on its own, and nothing is printed of what
comes behind.
-/

set_option autoImplicit false

namespace RowSelect

/-- The query, run on its own, gives rows that can be shown in the format. -/
def CanShow (db : Database) (format : Report.Format) (query : String) : Prop :=
  ∃ rows, Query.execute db query = .ok rows ∧ (format = .table → Report.Grid.Narrow rows)

/-- The query, run on its own, gives rows, and the text shows them. -/
def Prints (db : Database) (format : Report.Format) (color : Bool) (query text : String) : Prop :=
  ∃ rows, Query.execute db query = .ok rows ∧ Report.render rows format color = .ok text

def transcript (texts : List String) : String := "\n".intercalate (texts.map (· ++ "\n"))

theorem Report.exists_render {rows : List (Fields Json)} {format : Report.Format} (color : Bool)
    (h : format = .table → Grid.Narrow rows) :
    ∃ text, Report.render rows format color = .ok text := by
  cases format with
  | table =>
    obtain ⟨text, hwrite⟩ := Grid.exists_write color (h rfl)
    exact ⟨.ofList text, by simp [Report.render, hwrite, Except.map]⟩
  | json => exact ⟨_, rfl⟩
  | csv =>
    obtain ⟨text, hwrite⟩ := Csv.exists_write rows
    exact ⟨.ofList text, by simp [Report.render, hwrite, Except.map]⟩

theorem Prints.read {db : Database} {color : Bool} {query text : String}
    (h : Prints db .json color query text) : ∃ rows, Query.execute db query = .ok rows ∧
      ((Json.array (rows.map .object)).depth ≤ Json.maxDepth →
        Json.readDocumentBy? Number.ofNumeral? text = some (.array (rows.map .object))) := by
  obtain ⟨rows, hrows, htext⟩ := h
  obtain rfl := Except.ok.inj htext
  exact ⟨rows, hrows, fun hdepth => (Json.readDocumentBy?_ofNumeral? hdepth).2⟩

theorem exists_prints {db : Database} {format : Report.Format} {queries : List String}
    (color : Bool) (h : ∀ query ∈ queries, CanShow db format query) :
    ∃ texts, List.Forall₂ (Prints db format color) queries texts := by
  induction queries with
  | nil => exact ⟨[], .nil⟩
  | cons query queries ih =>
    obtain ⟨texts, htexts⟩ := ih fun q hq => h q (List.mem_cons_of_mem _ hq)
    obtain ⟨rows, hrows, hfits⟩ := h query (List.mem_cons_self ..)
    obtain ⟨text, htext⟩ := Report.exists_render color hfits
    exact ⟨text :: texts, .cons ⟨rows, hrows, htext⟩ htexts⟩

@[simp] theorem transcript_nil : transcript [] = "" := rfl

theorem transcript_cons (text : String) (texts : List String) :
    transcript (text :: texts) =
      text ++ "\n" ++ (if texts = [] then "" else "\n" ++ transcript texts) := by
  cases texts with
  | nil => simp [transcript]
  | cons next texts =>
    rw [transcript, List.map_cons, List.map_cons, String.intercalate_cons_cons, if_neg (by simp),
      transcript, List.map_cons, String.append_assoc]

namespace Command

variable {db : Database} {format : Report.Format} {color : Bool}

theorem runQueries_of_prints {query text : String} (h : Prints db format color query text)
    (output : String) (rest : List String) :
    runQueries db format color output (query :: rest) =
      runQueries db format color
        (output ++ (text ++ "\n" ++ if rest = [] then "" else "\n")) rest := by
  obtain ⟨rows, hrows, htext⟩ := h
  rw [runQueries, hrows]
  simp only [htext]
  split <;> simp [String.append_assoc]

theorem runQueries_append {done texts : List String}
    (h : List.Forall₂ (Prints db format color) done texts) (output : String) (rest : List String) :
    runQueries db format color output (done ++ rest) =
      runQueries db format color
        (output ++ (transcript texts ++ if done = [] ∨ rest = [] then "" else "\n")) rest := by
  induction h generalizing output with
  | nil => simp
  | @cons query text done texts h hmore ih =>
    rw [List.cons_append, runQueries_of_prints h, ih, transcript_cons]
    -- An empty line is written before a further query only, be it done already or still to be run.
    cases hmore with
    | nil => simp
    | cons => simp only [reduceCtorEq, List.cons_append, if_false, false_or, String.append_assoc]

theorem runQueries_of_execute {query : String} {e : Failure}
    (h : Query.execute db query = .error e) (output : String) (rest : List String) :
    runQueries db format color output (query :: rest) =
      .failure output ⟨"Query failed: " ++ Text.trimString query, [e.message]⟩ := by
  have hcauses : causesOf e = [] := by
    cases Query.refusal_of_execute h <;> rfl
  rw [runQueries, h]
  simp only [Complaint.during, hcauses]

theorem runQueries_of_wide {query : String} {rows : List Query.Row}
    (h : Query.execute db query = .ok rows) (hwide : ¬Report.Grid.Narrow rows) (output : String)
    (rest : List String) : runQueries db .table color output (query :: rest) = .aborted output := by
  obtain ⟨fault, hfault⟩ := Report.Grid.exists_write_eq_error color hwide
  have hrender : Report.render rows .table color = .error (.width fault) := by
    rw [Report.render, hfault]
    rfl
  rw [runQueries, h]
  simp only [hrender]
  rfl

theorem answer_eq_runQueries {m : Type → Type} [Monad m] [LawfulMonad m] {s : Surroundings m}
    {args queries : List String} {fromVariable : Option String} {o : Options} {settings : Settings}
    {terminal : Bool} (hcolor : showsColor s terminal = pure color)
    (hlookup : s.lookup databaseVariable = pure fromVariable)
    (hargs : Invocation.ofArguments args fromVariable = .perform o (.run queries))
    (hsettle : settle s o = pure settings) (hopen : openDatabase s settings = pure db) :
    answer s args terminal = pure (runQueries db settings.format color "" queries) := by
  simp only [answer, perform, hcolor, hlookup, hargs, hsettle, hopen, pure_bind, ExceptT.run_pure]

theorem run_answer {s : Surroundings Id} {before args queries : List String} {o₁ o₂ : Options}
    {settings : Settings} (hbefore : readPlace none {} [] before = .done o₁ [] false)
    (hargs : RunArguments {} args queries o₂) (hne : queries ≠ [])
    (hadmits : o₁.admits (s.lookup databaseVariable) = true ∧
      o₂.admits (s.lookup databaseVariable) = true)
    (hsettle : settle s (o₁.merge o₂ (s.lookup databaseVariable)) = pure settings)
    (hopen : openDatabase s settings = pure db) (terminal : Bool) :
    (answer s (before ++ "run" :: args) terminal).run =
      runQueries db settings.format (showsColor s terminal).run "" queries :=
  answer_eq_runQueries rfl rfl (hargs.ofArguments_eq hbefore hne hadmits) hsettle hopen

/-- Queries given on a command line whose settings and database load. If all of them succeed with
rows that can be shown, their results are all that is printed. Otherwise the results of those before
the first of which this is not so are printed, with an empty line behind them if there are any. If
that query fails, the complaint is about it and has its error for the only cause. If its rows are too
wide for a table, the program ends there. The queries behind it change nothing. -/
theorem answer_run {s : Surroundings Id} {before args queries : List String} {o₁ o₂ : Options}
    {settings : Settings}
    (hbefore : readPlace none {} [] before = .done o₁ [] false)
    (hargs : RunArguments {} args queries o₂) (hne : queries ≠ [])
    (hadmits : o₁.admits (s.lookup databaseVariable) = true ∧
      o₂.admits (s.lookup databaseVariable) = true)
    (hsettle : settle s (o₁.merge o₂ (s.lookup databaseVariable)) = pure settings)
    (hopen : openDatabase s settings = pure db) (terminal : Bool) :
    ((∀ query ∈ queries, CanShow db settings.format query) →
      ∃ texts,
        List.Forall₂ (Prints db settings.format (showsColor s terminal).run) queries texts ∧
        (answer s (before ++ "run" :: args) terminal).run = .success (transcript texts)) ∧
    ∀ done query later, queries = done ++ query :: later →
      (∀ q ∈ done, CanShow db settings.format q) →
      ∃ texts,
        List.Forall₂ (Prints db settings.format (showsColor s terminal).run) done texts ∧
        (∀ e, Query.execute db query = .error e →
          (answer s (before ++ "run" :: args) terminal).run =
            .failure (transcript texts ++ if done = [] then "" else "\n")
              ⟨"Query failed: " ++ Text.trimString query, [e.message]⟩) ∧
        ∀ rows, Query.execute db query = .ok rows → settings.format = .table →
          ¬Report.Grid.Narrow rows →
          (answer s (before ++ "run" :: args) terminal).run =
            .aborted (transcript texts ++ if done = [] then "" else "\n") := by
  rw [run_answer hbefore hargs hne hadmits hsettle hopen]
  constructor
  · intro hall
    obtain ⟨texts, htexts⟩ := exists_prints (showsColor s terminal).run hall
    have hrun := runQueries_append htexts "" []
    rw [List.append_nil, if_pos (.inr rfl), String.append_empty, String.empty_append] at hrun
    exact ⟨texts, htexts, hrun⟩
  · rintro done query later rfl hdone
    obtain ⟨texts, htexts⟩ := exists_prints (showsColor s terminal).run hdone
    have hrun := runQueries_append htexts "" (query :: later)
    rw [String.empty_append] at hrun
    refine ⟨texts, htexts, fun e hfail => ?_, fun rows hrows hformat hwide => ?_⟩
    · rw [hrun, runQueries_of_execute hfail]
      simp
    · rw [hrun, hformat, runQueries_of_wide hrows hwide]
      simp

def shelfText : String :=
  "\x7b\"a\":[\x7b\"x\":null,\"k\":\"p\"\x7d,\x7b\"k\":\"r\"\x7d," ++
    "\x7b\"k\":\"q\",\"x\":true\x7d],\"b\":[\x7b\"y\":\"s\"\x7d]\x7d"

def holding (text : String) : Surroundings Id where
  lookup name := if name = "HOME" then some "h" else none
  recordedHome := none
  readText path := if path = "s" then .ok text else .error .notFound
  hasPath _ := false

theorem openDatabase_holding {text : String} (h : Database.read text = .ok db) (logJson : Bool) :
    openDatabase (holding text) ⟨some "s", .table, "warn", logJson⟩ = pure db := by
  have hpieces : Path.pieces "s".toList = [.text "s".toList] := by simp [Path.pieces]
  have hexpand : Path.expand (holding text) "s" = pure "s" := by
    rw [Path.expand, hpieces]
    rfl
  have htext : ExceptT.lift ((holding text).readText "s") =
      (pure (.ok text) : ExceptT Failure Id (Except FileFault String)) := rfl
  have hload : loadDatabase (holding text) "s" = pure db := by
    simp only [loadDatabase, htext, pure_bind, h]
  simp only [openDatabase, Settings.databasePath, hexpand, pure_bind]
  change ExceptT.adapt (Complaint.during ("Cannot load database " ++ "s"))
    (loadDatabase (holding text) "s") = pure db
  rw [hload]
  rfl

def shelf : Surroundings Id := holding shelfText

theorem openDatabase_shelf :
    openDatabase shelf ⟨some "s", .table, "warn", true⟩ = pure Query.stock :=
  openDatabase_holding (eq_ok_of_toOption (by decide +kernel)) true

def shelfQuery : String := "SELECT b.y, a.x, b.y FROM a, b WHERE a.k <= 'q'"

theorem readPlace_database :
    readPlace (some "run") {} [] ["-d", "s"] = .done { database := some "s" } [] false := by
  decide +kernel

theorem answer_run_shelf :
    readPlace none {} [] ["--log-json"] = .done { logJson := true } [] false ∧
    RunArguments {} [shelfQuery, "-d", "s", " c ", "d"] [shelfQuery, " c ", "d"]
      { database := some "s" } ∧
    settle shelf { database := some "s", logJson := true } =
      pure ⟨some "s", .table, "warn", true⟩ ∧
    openDatabase shelf ⟨some "s", .table, "warn", true⟩ = pure Query.stock ∧
    (answer shelf ["--log-json", "run", shelfQuery, "-d", "s", " c ", "d"] false).run =
      .failure "a.x  | b.y\n-----+----\nnull | s\ntrue |\n(2 rows)\n\n"
        ⟨"Query failed: c", ["Invalid syntax: query must start with SELECT"]⟩ := by
  have hbefore : readPlace none {} [] ["--log-json"] = .done { logJson := true } [] false := by
    decide +kernel
  have hargs : RunArguments {} [shelfQuery, "-d", "s", " c ", "d"] [shelfQuery, " c ", "d"]
      { database := some "s" } :=
    .query (by decide +kernel) (.options readPlace_database
      (.query (by decide +kernel) (.query (by decide +kernel) (.done _))))
  have hsettle : settle shelf { database := some "s", logJson := true } =
      pure ⟨some "s", .table, "warn", true⟩ := rfl
  have hdone : ∀ q ∈ [shelfQuery], CanShow Query.stock .table q :=
    List.forall_mem_singleton.2 ⟨_, Query.execute_stock, fun _ =>
      Report.Grid.narrow_of_width_le (by decide +kernel)⟩
  have hfail : Query.execute Query.stock " c " = .error (.invalidSyntax .notSelect) := by
    have hfold : Query.foldCase (Text.trim " c ".toList) = .ok "c".toList := rfl
    have hparse : Query.parse " c " = .error .notSelect := by
      rw [Query.parse_eq_readStatement hfold, Query.readStatement, Query.readTokens_eq_tokensWithin]
      rfl
    exact Query.execute_eq_error_iff.2 (.inl ⟨_, hparse, rfl⟩)
  obtain ⟨texts, htexts, hanswer, -⟩ := (answer_run hbefore hargs (List.cons_ne_nil _ _)
    ⟨rfl, rfl⟩ hsettle openDatabase_shelf false).2 [shelfQuery] " c " ["d"] rfl hdone
  cases htexts with
  | cons hprints hmore =>
    cases hmore
    obtain ⟨rows, hrows, htext⟩ := hprints
    cases hrows.symm.trans Query.execute_stock
    cases htext
    refine ⟨hbefore, hargs, hsettle, openDatabase_shelf, (hanswer _ hfail).trans ?_⟩
    decide +kernel

def single (v : Json) : Database := ⟨[("a", ⟨[[("x", v)]]⟩)], List.pairwise_singleton _ _⟩

theorem execute_single (v : Json) :
    Query.execute (single v) "SELECT a.x FROM a" = .ok [[("a.x", v)]] := by
  have hfold : Query.foldCase (Text.trim "SELECT a.x FROM a".toList) =
      .ok "select a.x from a".toList := rfl
  have hparse : Query.parse "SELECT a.x FROM a" = .ok ⟨["a.x"], ["a"], none⟩ := by
    apply eq_ok_of_toOption
    rw [Query.parse_eq_readStatement hfold, Query.readStatement, Query.readTokens_eq_tokensWithin]
    decide +kernel
  rw [Query.execute_eq_bind, hparse]
  rfl

theorem read_single (s : String) :
    Database.read (single (.string s)).toJson.compact = .ok (single (.string s)) := by
  have hnumbers : (single (.string s)).toJson.numbers = [] := rfl
  have hdepth : (single (.string s)).toJson.depth = 3 := rfl
  have hdistinct : (single (.string s)).toJson.distinct = (single (.string s)).toJson := rfl
  have htext : Json.readDocument? (single (.string s)).toJson.compact =
      some (single (.string s)).toJson :=
    (Json.readDocument?_text (by simp [hnumbers]) (by simp [hdepth, Json.maxDepth])).1
  rw [Database.read, Json.read?, htext, Option.map_some, hdistinct]
  simp only [Database.ofJson_toJson]
  rfl

theorem not_forall_answer_run :
    ¬ ∀ (s : Surroundings Id) (before args queries : List String) (o₁ o₂ : Options)
      (settings : Settings) (db : Database) (terminal : Bool),
      readPlace none {} [] before = .done o₁ [] false → RunArguments {} args queries o₂ →
      queries ≠ [] → o₁.admits (s.lookup databaseVariable) = true ∧
        o₂.admits (s.lookup databaseVariable) = true →
      settle s (o₁.merge o₂ (s.lookup databaseVariable)) = pure settings →
      openDatabase s settings = pure db →
      (∀ query ∈ queries, ∃ rows, Query.execute db query = .ok rows) →
      ∃ output, (answer s (before ++ "run" :: args) terminal).run = .success output := by
  intro h
  have hargs : RunArguments {} ["SELECT a.x FROM a", "-d", "s"] ["SELECT a.x FROM a"]
      { database := some "s" } :=
    .query (by decide +kernel) (.options readPlace_database (.done _))
  have hopen := openDatabase_holding (read_single Report.Grid.wideText) false
  have hexecute := execute_single (.string Report.Grid.wideText)
  have hbefore : readPlace none {} [] [] = .done {} [] false := rfl
  have hsettle : settle (holding (single (.string Report.Grid.wideText)).toJson.compact)
      (({} : Options).merge { database := some "s" } none) =
        pure ⟨some "s", .table, "warn", false⟩ := rfl
  obtain ⟨output, hsuccess⟩ := h _ [] _ _ {} _ _ _ false hbefore hargs (List.cons_ne_nil _ _)
    ⟨rfl, rfl⟩ hsettle hopen (List.forall_mem_singleton.2 ⟨_, hexecute⟩)
  rw [run_answer hbefore hargs (List.cons_ne_nil _ _) ⟨rfl, rfl⟩ hsettle hopen,
    runQueries_of_wide hexecute (Report.Grid.not_narrow_wideRow "a.x")] at hsuccess
  cases hsuccess

end Command

end RowSelect
