import SchemaReconcile.Command.Deploy
import SchemaReconcile.Proofs.Catalog.Memory
import SchemaReconcile.Proofs.Catalog.Session
import SchemaReconcile.Proofs.Plan.Refusal
import SchemaReconcile.Proofs.Plan.Same

/-!
# Dry runs, sessions and catalogs in memory

A plan is carried out in three ways: a dry run prints its statements, a session sends them to a server and
commits after each operation, and a catalog in memory keeps them while it changes the state that was planned
for.  The first two plan against the snapshot that is read from the rows of the server, the third against its
own.

Rows that tell a snapshot are read as this snapshot (`Catalog.same_toSnapshot`), and the order of its entries
does not matter to a plan (`Plan.plan_eq_of_same`), so all three have the same plan or the same fault.  What
each makes of the plan is said apart (`Command.dryRun_of_plan`, `Catalog.Session.executeAll_of_completes`,
`Catalog.Memory.executeAll_of_rendered`) and put together in `runs_agree`.  That a dry run changes nothing
holds whatever the deploy command is asked (`Command.deploy_dryRun_events`).
-/

namespace SchemaReconcile

open Catalog (Event Memory Operation Rows Server Snapshot)
open Catalog.Session (committed connected fetchEvents)

/-- The statements of operations have these texts. -/
abbrev Rendered (ops : List Operation) (texts : List (List String)) : Prop :=
  List.Forall₂ (fun op t => op.render = .ok t) ops texts

/-! ## Catalogs in memory -/

/-- Texts of operations are those of their statements. -/
theorem exists_statements_of_rendered {ops : List Operation} {texts : List (List String)}
    (h : Rendered ops texts) :
    ∃ own, List.Forall₂ (fun op statements => op.statements = .ok statements) ops own ∧
      own.flatten.mapM Operation.renderStatement = .ok texts.flatten := by
  induction h with
  | nil => exact ⟨[], .nil, rfl⟩
  | @cons op t ops texts hop _ ih =>
    obtain ⟨statements, hstatements, hrender⟩ := bind_eq_ok.mp hop
    obtain ⟨own, hown, hlater⟩ := ih
    refine ⟨statements :: own, .cons hstatements hown, ?_⟩
    rw [List.flatten_cons, List.flatten_cons, mapM_eq_ok_iff]
    exact List.rel_append (mapM_eq_ok_iff.mp hrender) (mapM_eq_ok_iff.mp hlater)

/-- A catalog in memory keeps the statements of the operations that it carries out. -/
theorem Catalog.Memory.executeAll_of_rendered {ops : List Operation} {texts : List (List String)}
    (h : Rendered ops texts) (c : Memory) :
    ∃ statements, statements.mapM Operation.renderStatement = .ok texts.flatten ∧
      c.executeAll ops = ({ snapshot := Operation.applyAll ops c.snapshot
                            operations := c.operations ++ ops
                            statements := c.statements ++ statements }, none) := by
  obtain ⟨own, hown, hrender⟩ := exists_statements_of_rendered h
  exact ⟨own.flatten, hrender, executeAll_of_statements hown c⟩

/-! ## Dry runs -/

namespace Command

/-- The lines of a dry run about an operation with the texts of its statements. -/
def listed (op : Operation) (texts : List String) : List String :=
  ("-- " ++ op.describe) :: texts.map (· ++ ";")

/-- The lines in front of a plan. -/
def planHead (ops : List Operation) : List String :=
  ["", "[PLAN] " ++ toString ops.length ++ " operations", ""]

/-- An operation whose statements have texts is listed with them. -/
theorem plannedLines_of_render {op : Operation} {t : List String} (h : op.render = .ok t) :
    plannedLines op = ⟨listed op t, none⟩ := by
  obtain ⟨statements, hstatements, ht⟩ := bind_eq_ok.mp h
  have hof : Progress.of (fun s => (Operation.renderStatement s).map (· ++ ";")) statements =
      ⟨t.map (· ++ ";"), none⟩ := by
    rw [Progress.of_eq_iff, List.forall₂_map_right_iff]
    refine (mapM_eq_ok_iff.mp ht).imp fun s text hs => ?_
    rw [hs]
    rfl
  rw [plannedLines, hstatements]
  simp only [hof, Progress.join, listed, List.append_nil, List.singleton_append]

/-- A dry run lists the operations of the plan. -/
theorem dryRun_of_plan {server : Server} {options : Settings.Options} {m : Model} {ops : List Operation}
    {texts : List (List String)} (hplan : Catalog.Session.planOn server options m = .ok ops)
    (h : Rendered ops texts) :
    (dryRun server options m).1.result = .ok () ∧
      (dryRun server options m).2 = planHead ops ++ (List.zipWith listed ops texts).flatten := by
  have hlines : Progress.join (ops.map plannedLines) = ⟨(List.zipWith listed ops texts).flatten, none⟩ := by
    clear hplan
    induction h with
    | nil => rfl
    | cons hop _ ih =>
      rw [List.map_cons, Progress.join, plannedLines_of_render hop, ih]
      rfl
  rw [dryRun, hplan]
  simp only [hlines, planHead, and_self]

/-- A dry run asks the server and tells it nothing else. -/
theorem dryRun_events (server : Server) (options : Settings.Options) (m : Model) :
    (dryRun server options m).1.events = fetchEvents server options.schema := by
  unfold dryRun
  dsimp only
  split <;> rfl

/-! ## Deployments -/

/-- The deploy command reads its arguments, the options and the connection that they ask for, and the model of
their schema file. -/
structure Reads (env : Settings.Environment) (tree : File.Tree) (arguments : List String) (given : Given)
    (options : Settings.Options) (m : Model) (connection : String) : Prop where
  arguments : readArguments deployOptions arguments = .ok given
  options : optionsOf env given = .ok options
  model : modelOfFile tree ((given.text? "--schema").getD "") = .ok m
  connection : connectionOf env given = .ok connection

/-- The events of a command that is refused. -/
theorem refused_events (reported : List Family) (fault : Fault) (tree : File.Tree) :
    (refused reported fault tree).events = [] := by
  unfold refused
  split <;> rfl

/-- The events of a session are those of the command around it. -/
theorem concluded_events (before : List String) (events : List Event) (lines : List String)
    (fault : Option Fault) (dry : Bool) (tree : File.Tree) :
    (concluded before events lines fault dry tree).events = events := by
  unfold concluded
  split
  · rfl
  · split <;> rfl

/-- A connection adds its ends and a rollback to what is told. -/
theorem of_mem_connected {α : Type} {connection : String} {refusal : Option Catalog.Failure}
    {body : Catalog.Session.Outcome α} {e : Event} (h : e ∈ (connected connection refusal body).events) :
    e = .connect connection ∨ e = .rollback ∨ e = .close ∨ e ∈ body.events := by
  unfold connected at h
  split at h
  · exact .inl (List.mem_singleton.mp h)
  · dsimp only at h
    rw [List.cons_append, List.cons_append, List.mem_cons, List.mem_append, List.mem_append,
      List.mem_singleton] at h
    rcases h with rfl | (h | h) | rfl
    · exact .inl rfl
    · exact .inr (.inr (.inr h))
    · split at h
      · split at h
        · exact .inr (.inl (List.mem_singleton.mp h))
        · cases h
      · cases h
    · exact .inr (.inr (.inl rfl))

/-- The deploy command sends no statement and commits nothing in a dry run, whatever it is asked. -/
theorem deploy_dryRun_events {arguments : List String} {given : Given}
    (harguments : readArguments deployOptions arguments = .ok given)
    (hdry : given.has "--dry-run" = true) (env : Settings.Environment) (tree : File.Tree) (server : Server)
    (refusal : Option Catalog.Failure) :
    ∀ e ∈ (deploy env tree server refusal arguments).events, e.isStatement = false ∧ e ≠ .commit := by
  intro e he
  unfold deploy at he
  rw [harguments] at he
  dsimp only at he
  split at he
  · rw [refused_events] at he
    cases he
  · next options m _ =>
    rw [hdry, if_pos rfl] at he
    split at he
    · rw [concluded_events] at he
      cases he
    · next connection _ =>
      have hsession : e ∈ (connected connection refusal (dryRun server options m).1).events := by
        split at he <;> rwa [concluded_events] at he
      rcases of_mem_connected hsession with rfl | rfl | rfl | h
      · exact ⟨rfl, Event.noConfusion⟩
      · exact ⟨rfl, Event.noConfusion⟩
      · exact ⟨rfl, Event.noConfusion⟩
      · rw [dryRun_events] at h
        obtain ⟨query, -, rfl⟩ := List.mem_map.mp h
        exact ⟨rfl, Event.noConfusion⟩

/-- A deployment that lists the operations of the plan. -/
theorem deploy_of_plan {env : Settings.Environment} {tree : File.Tree} {arguments : List String}
    {given : Given} {options : Settings.Options} {m : Model} {connection : String} {server : Server}
    (h : Reads env tree arguments given options m connection) (hdry : given.has "--dry-run" = true)
    {ops : List Operation} {texts : List (List String)}
    (hplan : Catalog.Session.planOn server options m = .ok ops) (htexts : Rendered ops texts) :
    deploy env tree server none arguments =
      { exit := .code 0
        lines := introduction ((given.text? "--schema").getD "") options m true ++
          (planHead ops ++ (List.zipWith listed ops texts).flatten) ++ conclusion true
        events := .connect connection :: fetchEvents server options.schema ++ [.close]
        tree } := by
  obtain ⟨hresult, hlines⟩ := dryRun_of_plan hplan htexts
  have hsession : connected connection none (dryRun server options m).1 =
      { events := .connect connection :: fetchEvents server options.schema ++ [.close]
        result := .ok ()
        notices := (dryRun server options m).1.notices } := by
    rw [connected, hresult, dryRun_events]
    simp
  have hinput : (do
      let options ← optionsOf env given
      let m ← modelOfFile tree ((given.text? "--schema").getD "")
      return (options, m) : Except Fault (Settings.Options × Model)) = .ok (options, m) := by
    rw [h.options, h.model]
    rfl
  unfold deploy
  rw [h.arguments]
  dsimp only
  rw [hinput]
  dsimp only
  rw [h.connection, hdry]
  dsimp only
  rw [if_pos rfl, hsession, hlines]
  rfl

end Command

/-! ## The three runs -/

open Command (Reads conclusion deploy dryRun introduction listed planHead)

/-- The runs of a plan whose statements have certain texts: one sequence of statements is printed, sent to the
server and kept in memory. -/
structure RunsAgree (server : Server) (s : Snapshot) (options : Settings.Options) (m : Model)
    (ops : List Operation) (texts : List (List String)) : Prop where
  /-- The dry run lists the operations of the plan with the texts of their statements. -/
  printed : (dryRun server options m).2 = planHead ops ++ (List.zipWith listed ops texts).flatten
  /-- So does the deploy command, which tells the server nothing else than its questions. -/
  deployed : ∀ env tree arguments given connection, Reads env tree arguments given options m connection →
    given.has "--dry-run" = true → deploy env tree server none arguments =
      { exit := .code 0
        lines := introduction ((given.text? "--schema").getD "") options m true ++
          (planHead ops ++ (List.zipWith listed ops texts).flatten) ++ conclusion true
        events := .connect connection :: fetchEvents server options.schema ++ [.close]
        tree }
  /-- A server that refuses nothing lets the reconciliation through. -/
  completes : server.refuses = none → (Catalog.Session.reconcile server options m).result = .ok ops
  /-- A reconciliation without a failure sends these statements, each operation with its commit. -/
  executed : ∀ done, (Catalog.Session.reconcile server options m).result = .ok done →
    done = ops ∧ (Catalog.Session.reconcile server options m).events =
      fetchEvents server options.schema ++ committed texts
  /-- A catalog in memory carries the same operations out. -/
  applied : (Memory.reconcile { snapshot := s } options m).2 = .ok ops
  /-- The statements that it keeps have these texts. -/
  recorded : (Memory.reconcile { snapshot := s } options m).1.statements.mapM Operation.renderStatement =
    .ok texts.flatten

/-- The runs where there is no plan: nothing is printed, sent or kept. -/
structure RunsRefused (server : Server) (s : Snapshot) (options : Settings.Options) (m : Model)
    (fault : Plan.Fault) : Prop where
  dry : (dryRun server options m).1.result = .error (.plan fault) ∧ (dryRun server options m).2 = []
  live : (Catalog.Session.reconcile server options m).result = .error (.plan fault) ∧
    (Catalog.Session.reconcile server options m).events = fetchEvents server options.schema
  memory : Memory.reconcile { snapshot := s } options m = ({ snapshot := s }, .error (.plan fault))

section Runs

variable {server : Server} {s : Snapshot} {options : Settings.Options} {m : Model}

/-- The runs of a plan agree. -/
theorem runsAgree_of_plan (hschema : s.schema = options.schema) {ops : List Operation}
    {texts : List (List String)} (hplan : Plan.plan options m s = .ok ops)
    (hserver : Catalog.Session.planOn server options m = .ok ops) (htexts : Rendered ops texts) :
    RunsAgree server s options m ops texts := by
  have hfetch : ({ snapshot := s } : Memory).fetch options.schema = s := if_pos hschema.symm
  obtain ⟨statements, hrender, hrun⟩ := Catalog.Memory.executeAll_of_rendered htexts { snapshot := s }
  have hmemory : Memory.reconcile { snapshot := s } options m =
      ({ snapshot := Operation.applyAll ops s, operations := ops, statements }, .ok ops) := by
    rw [Memory.reconcile, hfetch, hplan]
    simp only [hrun, List.nil_append]
  have hlive : Catalog.Session.reconcile server options m =
      { Catalog.Session.executeAll server ops with
        events := fetchEvents server options.schema ++ (Catalog.Session.executeAll server ops).events } := by
    rw [Catalog.Session.reconcile, hserver]
  refine ⟨(Command.dryRun_of_plan hserver htexts).2, ?_, ?_, ?_, ?_, ?_⟩
  · exact fun _ _ _ _ _ h hdry => Command.deploy_of_plan h hdry hserver htexts
  · intro hrefuses
    have haccepts : Catalog.Session.Completes server 0 ops texts :=
      ⟨htexts, fun n _ => Catalog.Session.refusal?_eq_none hrefuses _,
        fun before _ _ => Catalog.Session.commitRefusal?_eq_none hrefuses _⟩
    rw [hlive]
    exact (Catalog.Session.executeAll_of_completes haccepts).2
  · intro done hdone
    rw [hlive] at hdone ⊢
    rcases Catalog.Session.completes_or_breaks server ops with
      ⟨texts', hcompletes⟩ | ⟨texts', part, last, fault, hbreaks⟩
    · obtain ⟨hevents, hresult⟩ := Catalog.Session.executeAll_of_completes hcompletes
      have hsame : texts' = texts := Except.ok.inj
        ((mapM_eq_ok_iff.mpr hcompletes.rendered).symm.trans (mapM_eq_ok_iff.mpr htexts))
      obtain rfl := Except.ok.inj (hdone.symm.trans hresult)
      exact ⟨rfl, by rw [hevents, hsame]⟩
    · obtain ⟨-, hresult⟩ := Catalog.Session.executeAll_of_breaks hbreaks
      cases hdone.symm.trans hresult
  · rw [hmemory]
  · rw [hmemory]
    exact hrender

/-- The runs without a plan are refused alike. -/
theorem runsRefused_of_plan (hschema : s.schema = options.schema) {fault : Plan.Fault}
    (hplan : Plan.plan options m s = .error fault)
    (hserver : Catalog.Session.planOn server options m = .error (.plan fault)) :
    RunsRefused server s options m fault := by
  have hfetch : ({ snapshot := s } : Memory).fetch options.schema = s := if_pos hschema.symm
  refine ⟨?_, ?_, Plan.memory_of_plan_error (hfetch.symm ▸ hplan)⟩
  · rw [dryRun, hserver]
    exact ⟨rfl, rfl⟩
  · rw [Catalog.Session.reconcile, hserver]
    exact ⟨rfl, rfl⟩

/-- A dry run, a session and a catalog in memory agree for every model and every state of a schema.  The rows
about the state are read as this state, the runs of a plan whose statements can be written print, send and keep
the same statements in the same order, and where there is no plan all three are refused alike.  A deployment
that is a dry run sends no statement and commits nothing. -/
theorem runs_agree (htells : server.rows.Tells s) (hschema : s.schema = options.schema)
    (hempty : s.schemaExists = false → s = .empty s.schema) (hlabels : ∀ type, s.labels? type ≠ some [])
    (m : Model) :
    (∃ t, (Catalog.Session.fetch server options.schema).result = .ok t ∧ t.Same s) ∧
    (∀ ops texts, Plan.plan options m s = .ok ops → Rendered ops texts →
      RunsAgree server s options m ops texts) ∧
    (∀ fault, Plan.plan options m s = .error fault → RunsRefused server s options m fault) ∧
    ∀ env tree refusal arguments given, Command.readArguments Command.deployOptions arguments = .ok given →
      given.has "--dry-run" = true →
        ∀ e ∈ (deploy env tree server refusal arguments).events, e.isStatement = false ∧ e ≠ .commit := by
  have hsame : (server.rows.toSnapshot options.schema).Same s :=
    hschema ▸ Catalog.same_toSnapshot htells hempty hlabels
  have hserver : Catalog.Session.planOn server options m = (Plan.plan options m s).mapError .plan := by
    rw [Catalog.Session.planOn, Plan.plan_eq_of_same hsame]
  refine ⟨⟨_, rfl, hsame⟩, ?_, ?_, ?_⟩
  · intro ops texts hplan htexts
    exact runsAgree_of_plan hschema hplan (by rw [hserver, hplan]; rfl) htexts
  · intro fault hplan
    exact runsRefused_of_plan hschema hplan (by rw [hserver, hplan]; rfl)
  · intro env tree refusal arguments given harguments hdry
    exact Command.deploy_dryRun_events harguments hdry env tree server refusal

end Runs

/-- A working directory with one schema file. -/
def noteTree : File.Tree :=
  let text := "type Note @entity \x7b id: ID! mood: Mood \x7d enum Mood \x7b CALM LOUD \x7d"
  [(["note.graphql"], .file (text.toList.map fun c => UInt8.ofNat c.toNat))]

/-- The arguments of a dry run for this file. -/
def noteArguments : List String :=
  ["--schema", "note.graphql", "--connection", "db", "--dry-run"]

/-- A schema that was built in part: the table of a note lacks columns, its enum type has no comment, and
another table has no columns at all. -/
def partlyBuilt : Snapshot where
  schema := "public"
  schemaExists := true
  enums := [(Naming.enumTypeOf "public" "Mood", ["CALM", "LOUD"])]
  typeComments := [(Naming.enumTypeOf "public" "Mood", none)]
  tables := [("note", ["id"]), ("log", [])]

/-- The runs over this schema agree on a plan for the rest. -/
theorem runs_agree_partlyBuilt :
    partlyBuilt.rows.Tells partlyBuilt ∧
      ∃ given m ops texts, Reads [] noteTree noteArguments given {} m "db" ∧
        given.has "--dry-run" = true ∧ Plan.plan {} m partlyBuilt = .ok ops ∧ Rendered ops texts ∧
        texts.flatten ≠ [] ∧ RunsAgree { rows := partlyBuilt.rows } partlyBuilt {} m ops texts := by
  have htells : partlyBuilt.rows.Tells partlyBuilt :=
    Snapshot.Keyed.tells ⟨by decide +kernel, by decide +kernel, by decide +kernel, by decide +kernel⟩
  have hlabels : ∀ type, partlyBuilt.labels? type ≠ some [] :=
    Snapshot.labels?_ne_nil (by decide +kernel)
  have hempty : partlyBuilt.schemaExists = false → partlyBuilt = .empty partlyBuilt.schema := nofun
  have hread : ((Command.readArguments Command.deployOptions noteArguments).toOption.map fun given =>
      ((given.text? "--schema").getD "", given.has "--dry-run", (Command.optionsOf [] given).toOption,
        (Command.connectionOf [] given).toOption)) = some ("note.graphql", true, some {}, some "db") := by
    decide +kernel
  have hrendered : (((Command.modelOfFile noteTree "note.graphql").toOption.bind fun m =>
      (Plan.plan {} m partlyBuilt).toOption.bind fun ops =>
        (ops.mapM Operation.render).toOption.map fun texts => (m, ops, texts)).filter fun p =>
          !p.2.2.flatten.isEmpty).isSome = true := by decide +kernel
  obtain ⟨given, harguments, hgiven⟩ := Option.map_eq_some_iff.mp hread
  obtain ⟨hpath, hgiven⟩ := Prod.mk.inj hgiven
  obtain ⟨hdry, hgiven⟩ := Prod.mk.inj hgiven
  obtain ⟨hoptions, hconnection⟩ := Prod.mk.inj hgiven
  obtain ⟨⟨m, ops, texts⟩, h⟩ := Option.isSome_iff_exists.mp hrendered
  obtain ⟨h, hsome⟩ := Option.filter_eq_some_iff.mp h
  obtain ⟨_, hmodel, h⟩ := Option.bind_eq_some_iff.mp h
  obtain ⟨_, hplan, h⟩ := Option.bind_eq_some_iff.mp h
  obtain ⟨_, htexts, ⟨⟩⟩ := Option.map_eq_some_iff.mp h
  have hreads : Reads [] noteTree noteArguments given {} m "db" :=
    ⟨eq_ok_of_toOption harguments, eq_ok_of_toOption hoptions,
      hpath ▸ eq_ok_of_toOption hmodel, eq_ok_of_toOption hconnection⟩
  have htexts : Rendered ops texts := mapM_eq_ok_iff.mp (eq_ok_of_toOption htexts)
  have hagree := @runs_agree { rows := partlyBuilt.rows } partlyBuilt {} htells rfl hempty hlabels m
  have hsome : texts.flatten ≠ [] := by simpa using hsome
  exact ⟨htells, given, m, ops, texts, hreads, hdry, eq_ok_of_toOption hplan, htexts, hsome,
    hagree.2.1 ops texts (eq_ok_of_toOption hplan) htexts⟩

end SchemaReconcile
