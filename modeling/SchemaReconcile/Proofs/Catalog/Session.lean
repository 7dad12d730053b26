import Mathlib.Data.List.Induction
import SchemaReconcile.Catalog.Session
import SchemaReconcile.Proofs.Results

/-!
# Sessions that end early

What a database keeps of a session can be read off what it is told: a statement is open until a commit
keeps it, and a rollback or the end of the connection drops it (`Ledger`).

A list of operations either completes or breaks at one operation (`completes_or_breaks`).  It breaks when
the statements of this operation cannot be composed, when one of them cannot be written, or when the server
refuses one of them or their commit (`Fails`).  Up to there each operation is committed before the next one
begins (`runOperations_append`), so a run that breaks keeps the operations before whole and nothing of the one
it breaks at (`session_commits_prefix`).  For an interrupt this rests on the end of the connection alone, as no
operation handles it.

The end of the connection is also all that is left where a rollback fails.  What is kept and dropped is then the
same, but the caller no longer sees the fault that the run broke with: each failure on the way out takes the
place of the one before (`surfaced`).  Only where the way out goes well (`EndsWell`) does the first fault come
through.

A server is told no statement that is not one of an operation (`exists_writes_of_mem`), and a session without a
fault has each operation carried out in full (`executes_of_ok`).
-/

namespace SchemaReconcile.Catalog

/-! ## What a database keeps -/

/-- The statements of a session by what became of them. -/
structure Ledger where
  kept : List String := []
  pending : List String := []
  dropped : List String := []
  deriving DecidableEq, Repr

namespace Ledger

/-- The open statements are dropped. -/
def drop (l : Ledger) : Ledger := { l with pending := [], dropped := l.dropped ++ l.pending }

/-- What an event does to the statements. -/
def after (l : Ledger) : Event → Ledger
  | .execute sql => { l with pending := l.pending ++ [sql] }
  | .commit => { l with kept := l.kept ++ l.pending, pending := [] }
  | .rollback => l.drop
  | .close => l.drop
  | _ => l

/-- What became of the statements of a session. -/
def of (events : List Event) : Ledger := events.foldl after {}

/-- Statements that are executed are open. -/
theorem foldl_execute (l : Ledger) (texts : List String) :
    (texts.map .execute).foldl after l = { l with pending := l.pending ++ texts } := by
  induction texts generalizing l with
  | nil => simp
  | cons sql rest ih =>
    rw [List.map_cons, List.foldl_cons, ih, after, List.append_assoc, List.singleton_append]

/-- A second drop changes nothing. -/
@[simp] theorem drop_drop (l : Ledger) : l.drop.drop = l.drop := by
  simp [drop]

end Ledger

/-- Whether an event sends a statement to the server. -/
def Event.isStatement : Event → Bool
  | .execute _ | .fail _ => true
  | _ => false

namespace Session

/-- What a server is told about operations that are carried out: the statements of each, and a commit. -/
def committed (texts : List (List String)) : List Event :=
  texts.flatMap fun t => t.map .execute ++ [.commit]

/-- Committed operations are kept. -/
theorem foldl_committed {l : Ledger} (hpending : l.pending = []) (texts : List (List String)) :
    (committed texts).foldl Ledger.after l = { l with kept := l.kept ++ texts.flatten } := by
  induction texts generalizing l with
  | nil => simp [committed]
  | cons t rest ih =>
    have hstep : (t.map Event.execute ++ [Event.commit]).foldl Ledger.after l =
        { l with kept := l.kept ++ t } := by
      rw [List.foldl_append, Ledger.foldl_execute]
      simp [Ledger.after, hpending]
    have hrest := ih (l := { l with kept := l.kept ++ t }) hpending
    rw [committed, List.flatMap_cons, List.foldl_append, hstep, List.flatten_cons, ← List.append_assoc]
    exact hrest

/-- Events that execute statements are about statements. -/
theorem filter_execute (texts : List String) :
    (texts.map Event.execute).filter Event.isStatement = texts.map .execute := by
  rw [List.filter_eq_self]
  intro e he
  obtain ⟨sql, -, rfl⟩ := List.mem_map.mp he
  rfl

/-- The statements of committed operations. -/
theorem filter_committed (texts : List (List String)) :
    (committed texts).filter Event.isStatement = texts.flatten.map .execute := by
  induction texts with
  | nil => rfl
  | cons t rest ih =>
    have hcommit : [Event.commit].filter Event.isStatement = [] := rfl
    rw [committed, List.flatMap_cons, List.filter_append, List.filter_append, filter_execute,
      hcommit, List.append_nil, List.flatten_cons, List.map_append]
    exact congrArg _ ih

/-! ## Operations that complete and operations that fail -/

/-- The server refuses none of a number of statements after the first ones. -/
def Accepts (server : Server) (ran count : Nat) : Prop :=
  ∀ n < count, server.refusal? (ran + n + 1) = none

/-- The server carries out the commit of every operation, after a number of statements and those with the
texts of the operations up to it. -/
def Commits (server : Server) (ran : Nat) (texts : List (List String)) : Prop :=
  ∀ before, before <+: texts → before ≠ [] → server.commitRefusal? (ran + before.flatten.length) = none

/-- Operations are carried out after a number of statements: each has its texts, and the server refuses
none of these and no commit. -/
structure Completes (server : Server) (ran : Nat) (ops : List Operation) (texts : List (List String)) :
    Prop where
  rendered : List.Forall₂ (fun op t => op.render = .ok t) ops texts
  accepted : Accepts server ran texts.flatten.length
  commits : Commits server ran texts

/-- An operation fails after a number of statements, with the texts of its own statements that are carried
out before, what the server is told of the statement that fails, and the fault. -/
inductive Fails (server : Server) (ran : Nat) (op : Operation) :
    List String → List Event → SessionFault → Prop
  /-- It has no statements. -/
  | composing {fault : StatementFault} (hstatements : op.statements = .error fault) :
      Fails server ran op [] [] (.statement fault)
  /-- One of its statements cannot be written. -/
  | rendering {before after : List Sql.Statement} {s : Sql.Statement} {part : List String}
      {fault : StatementFault} (hstatements : op.statements = .ok (before ++ s :: after))
      (hbefore : before.mapM Operation.renderStatement = .ok part)
      (haccepted : Accepts server ran part.length)
      (hs : Operation.renderStatement s = .error fault) :
      Fails server ran op part [] (.statement fault)
  /-- The server refuses one of its statements. -/
  | executing {before after : List Sql.Statement} {s : Sql.Statement} {part : List String}
      {sql : String} {failure : Failure} (hstatements : op.statements = .ok (before ++ s :: after))
      (hbefore : before.mapM Operation.renderStatement = .ok part)
      (haccepted : Accepts server ran part.length)
      (hs : Operation.renderStatement s = .ok sql)
      (hrefused : server.refusal? (ran + part.length + 1) = some failure) :
      Fails server ran op part [.fail sql] (.failure failure)
  /-- The server carries all of its statements out and refuses their commit. -/
  | committing {part : List String} {failure : Failure} (hrender : op.render = .ok part)
      (haccepted : Accepts server ran part.length)
      (hrefused : server.commitRefusal? (ran + part.length) = some failure) :
      Fails server ran op part [] (.failure failure)

/-- A list of operations breaks at one of them: those before complete, and this one fails. -/
def Breaks (server : Server) (ops : List Operation) (texts : List (List String)) (part : List String)
    (last : List Event) (fault : SessionFault) : Prop :=
  ∃ before op after, ops = before ++ op :: after ∧ Completes server 0 before texts ∧
    Fails server texts.flatten.length op part last fault

variable {server : Server} {ran : Nat}

/-- A server that refuses nothing refuses no statement. -/
theorem refusal?_eq_none (h : server.refuses = none) (number : Nat) : server.refusal? number = none := by
  rw [Server.refusal?, Server.due?, h, Option.bind_none, ite_self]

/-- A server that refuses nothing refuses no commit. -/
theorem commitRefusal?_eq_none (h : server.refuses = none) (number : Nat) :
    server.commitRefusal? number = none := by
  rw [Server.commitRefusal?, Server.due?, h, Option.bind_none, ite_self]

/-- Statements of two parts are accepted one part after the other. -/
theorem accepts_add {a b : Nat} :
    Accepts server ran (a + b) ↔ Accepts server ran a ∧ Accepts server (ran + a) b := by
  constructor
  · intro h
    refine ⟨fun n hn => h n (by omega), fun n hn => ?_⟩
    rw [Nat.add_assoc ran a n]
    exact h (a + n) (by omega)
  · rintro ⟨ha, hb⟩ n hn
    by_cases hlt : n < a
    · exact ha n hlt
    · have hrest := hb (n - a) (by omega)
      rwa [Nat.add_assoc ran a (n - a), Nat.add_sub_cancel' (by omega)] at hrest

/-- One statement is accepted. -/
theorem accepts_one : Accepts server ran 1 ↔ server.refusal? (ran + 1) = none := by
  refine ⟨fun h => h 0 Nat.one_pos, fun h n hn => ?_⟩
  obtain rfl : n = 0 := by omega
  exact h

/-- The commits of a first operation and of those behind it are carried out one after the other. -/
theorem commits_cons {t : List String} {texts : List (List String)} :
    Commits server ran (t :: texts) ↔
      server.commitRefusal? (ran + t.length) = none ∧ Commits server (ran + t.length) texts := by
  constructor
  · intro h
    refine ⟨?_, fun before hbefore hne => ?_⟩
    · have hfirst := h [t] (List.prefix_append [t] texts) (List.cons_ne_nil _ _)
      rwa [List.flatten_singleton] at hfirst
    · have hlater := h (t :: before) (List.cons_prefix_cons.mpr ⟨rfl, hbefore⟩) (List.cons_ne_nil _ _)
      rwa [List.flatten_cons, List.length_append, ← Nat.add_assoc] at hlater
  · rintro ⟨hfirst, hlater⟩ before hbefore hne
    obtain ⟨u, rest, rfl⟩ := List.exists_cons_of_ne_nil hne
    obtain ⟨rfl, hrest⟩ := List.cons_prefix_cons.mp hbefore
    rw [List.flatten_cons, List.length_append, ← Nat.add_assoc]
    rcases eq_or_ne rest [] with rfl | hne
    · exact hfirst
    · exact hlater rest hrest hne

/-- The commits of some operations and of a last one are carried out one after the other. -/
theorem commits_append_singleton {t : List String} {texts : List (List String)} :
    Commits server ran (texts ++ [t]) ↔ Commits server ran texts ∧
      server.commitRefusal? (ran + texts.flatten.length + t.length) = none := by
  constructor
  · intro h
    refine ⟨fun before hbefore => h before (hbefore.trans (List.prefix_append texts [t])), ?_⟩
    have hall := h (texts ++ [t]) (List.prefix_refl _) (by simp)
    rwa [List.flatten_append, List.flatten_singleton, List.length_append, ← Nat.add_assoc] at hall
  · rintro ⟨hfirst, hlast⟩ before hbefore hne
    rcases List.prefix_concat_iff.mp hbefore with rfl | hshort
    · rwa [List.flatten_append, List.flatten_singleton, List.length_append, ← Nat.add_assoc]
    · exact hfirst before hshort hne

/-! ## Statements -/

/-- Statements that are carried out come first, and the others go on behind them. -/
theorem runStatements_append {before : List Sql.Statement} {part : List String}
    (hbefore : before.mapM Operation.renderStatement = .ok part)
    (haccepted : Accepts server ran part.length) (rest : List Sql.Statement) :
    runStatements server ran (before ++ rest) =
      { runStatements server (ran + part.length) rest with
        events := part.map .execute ++ (runStatements server (ran + part.length) rest).events } := by
  rw [mapM_eq_ok_iff] at hbefore
  induction hbefore generalizing ran with
  | nil => rfl
  | @cons s sql before part hs _ ih =>
    rw [List.length_cons, Nat.add_comm, accepts_add, accepts_one] at haccepted
    have hstep : runStatement server ran s = ⟨[.execute sql], ran + 1, none⟩ := by
      rw [runStatement, hs]
      simp only [haccepted.1]
    rw [List.cons_append, runStatements, hstep, List.length_cons, List.map_cons, List.cons_append]
    simp only
    rw [ih haccepted.2, Nat.add_assoc ran 1, Nat.add_comm 1]
    rfl

/-- Statements are carried out, or there is a first one that is not. -/
theorem accepted_or_stopped (server : Server) (ran : Nat) (statements : List Sql.Statement) :
    (∃ part, statements.mapM Operation.renderStatement = .ok part ∧ Accepts server ran part.length) ∨
    ∃ before s after part, statements = before ++ s :: after ∧
      before.mapM Operation.renderStatement = .ok part ∧ Accepts server ran part.length ∧
      ((∃ fault, Operation.renderStatement s = .error fault) ∨
        ∃ sql failure, Operation.renderStatement s = .ok sql ∧
          server.refusal? (ran + part.length + 1) = some failure) := by
  induction statements using List.reverseRecOn with
  | nil => exact .inl ⟨[], rfl, fun n hn => absurd hn (Nat.not_lt_zero n)⟩
  | append_singleton statements s ih =>
    rcases ih with ⟨part, hpart, haccepted⟩ | ⟨before, t, after, part, rfl, hstop⟩
    · cases hs : Operation.renderStatement s with
      | error fault => exact .inr ⟨statements, s, [], part, rfl, hpart, haccepted, .inl ⟨fault, hs⟩⟩
      | ok sql =>
        cases hrefused : server.refusal? (ran + part.length + 1) with
        | some failure =>
          exact .inr ⟨statements, s, [], part, rfl, hpart, haccepted, .inr ⟨sql, failure, hs, hrefused⟩⟩
        | none =>
          refine .inl ⟨part ++ [sql], ?_, ?_⟩
          · rw [mapM_eq_ok_iff] at hpart ⊢
            exact List.rel_append hpart (.cons hs .nil)
          · rw [List.length_append, List.length_singleton, accepts_add, accepts_one]
            exact ⟨haccepted, hrefused⟩
    · exact .inr ⟨before, t, after ++ [s], part, by simp, hstop⟩

/-! ## Operations -/

/-- What an operation tells whose statements are all carried out depends on their commit. -/
theorem runOperation_of_accepts {op : Operation} {t : List String} (hrender : op.render = .ok t)
    (haccepted : Accepts server ran t.length) :
    runOperation server ran op =
      let fault := (server.commitRefusal? (ran + t.length)).map SessionFault.failure
      ⟨t.map .execute ++ ending fault, ran + t.length, fault⟩ := by
  obtain ⟨statements, hstatements, ht⟩ := bind_eq_ok.mp hrender
  have hrun := runStatements_append ht haccepted []
  rw [List.append_nil] at hrun
  rw [runOperation, hstatements]
  simp only [hrun, runStatements, List.append_nil, faultOf]

/-- An operation whose statements and commit are carried out leaves no fault. -/
theorem runOperation_of_render {op : Operation} {t : List String} (hrender : op.render = .ok t)
    (haccepted : Accepts server ran t.length) (hcommit : server.commitRefusal? (ran + t.length) = none) :
    runOperation server ran op = ⟨t.map .execute ++ [.commit], ran + t.length, none⟩ := by
  rw [runOperation_of_accepts hrender haccepted, hcommit]
  rfl

/-- An operation that fails leaves its statements that were run behind, with a rollback where the fault is
handled. -/
theorem runOperation_of_fails {op : Operation} {part : List String} {last : List Event}
    {fault : SessionFault} (h : Fails server ran op part last fault) :
    (runOperation server ran op).events = part.map .execute ++ last ++ ending (some fault) ∧
      (runOperation server ran op).fault = some fault := by
  cases h with
  | composing hstatements =>
    rw [runOperation, hstatements]
    exact ⟨rfl, rfl⟩
  | rendering hstatements hbefore haccepted hs =>
    rw [runOperation, hstatements]
    simp only [runStatements_append hbefore haccepted, runStatements, runStatement, hs, faultOf, and_self]
  | executing hstatements hbefore haccepted hs hrefused =>
    rw [runOperation, hstatements]
    simp only [runStatements_append hbefore haccepted, runStatements, runStatement, hs, hrefused, faultOf,
      and_self]
  | committing hrender haccepted hrefused =>
    rw [runOperation_of_accepts hrender haccepted, hrefused, List.append_nil]
    exact ⟨rfl, rfl⟩

/-- An operation is carried out or fails. -/
theorem rendered_or_fails (server : Server) (ran : Nat) (op : Operation) :
    (∃ t, op.render = .ok t ∧ Accepts server ran t.length ∧
        server.commitRefusal? (ran + t.length) = none) ∨
      ∃ part last fault, Fails server ran op part last fault := by
  cases hstatements : op.statements with
  | error fault => exact .inr ⟨_, _, _, .composing hstatements⟩
  | ok statements =>
    rcases accepted_or_stopped server ran statements with
      ⟨t, ht, haccepted⟩ | ⟨before, s, after, part, rfl, hbefore, haccepted, hstop⟩
    · have hrender : op.render = .ok t := bind_eq_ok.mpr ⟨statements, hstatements, ht⟩
      cases hcommit : server.commitRefusal? (ran + t.length) with
      | none => exact .inl ⟨t, hrender, haccepted, hcommit⟩
      | some failure => exact .inr ⟨_, _, _, .committing hrender haccepted hcommit⟩
    · right
      rcases hstop with ⟨fault, hs⟩ | ⟨sql, failure, hs, hrefused⟩
      · exact ⟨_, _, _, .rendering hstatements hbefore haccepted hs⟩
      · exact ⟨_, _, _, .executing hstatements hbefore haccepted hs hrefused⟩

/-- Operations that complete are committed one by one, and the others go on behind them. -/
theorem runOperations_append {before : List Operation} {texts : List (List String)}
    (h : Completes server ran before texts) (rest : List Operation) :
    runOperations server ran (before ++ rest) =
      let later := runOperations server (ran + texts.flatten.length) rest
      ({ later.1 with events := committed texts ++ later.1.events }, later.2) := by
  obtain ⟨hrendered, haccepted, hcommits⟩ := h
  induction hrendered generalizing ran with
  | nil => rfl
  | @cons op t before texts ht _ ih =>
    rw [List.flatten_cons, List.length_append, accepts_add] at haccepted
    rw [commits_cons] at hcommits
    rw [List.cons_append, runOperations, runOperation_of_render ht haccepted.1 hcommits.1]
    simp only
    rw [ih haccepted.2 hcommits.2, List.flatten_cons, List.length_append, Nat.add_assoc]
    simp only [committed, List.flatMap_cons, List.append_assoc]

/-- Operations complete, or break at one of them. -/
theorem completes_or_breaks (server : Server) (ops : List Operation) :
    (∃ texts, Completes server 0 ops texts) ∨
      ∃ texts part last fault, Breaks server ops texts part last fault := by
  induction ops using List.reverseRecOn with
  | nil => exact .inl ⟨[], .nil, fun n hn => absurd hn (Nat.not_lt_zero n),
      fun before hbefore hne => absurd (List.prefix_nil.mp hbefore) hne⟩
  | append_singleton ops op ih =>
    rcases ih with ⟨texts, hcompletes⟩ | ⟨texts, part, last, fault, before, op', after, rfl, hbreaks⟩
    · rcases rendered_or_fails server texts.flatten.length op with
        ⟨t, ht, haccepted, hcommit⟩ | ⟨part, last, fault, hfails⟩
      · refine .inl ⟨texts ++ [t], List.rel_append hcompletes.rendered (.cons ht .nil), ?_, ?_⟩
        · rw [List.flatten_append, List.flatten_singleton, List.length_append, accepts_add, Nat.zero_add]
          exact ⟨hcompletes.accepted, haccepted⟩
        · rw [commits_append_singleton, Nat.zero_add]
          exact ⟨hcompletes.commits, hcommit⟩
      · exact .inr ⟨texts, part, last, fault, ops, op, [], rfl, hcompletes, hfails⟩
    · exact .inr ⟨texts, part, last, fault, before, op', after ++ [op], by simp, hbreaks⟩

/-- A run that breaks tells the operations before with their commits, and of the operation that it breaks
at what comes before its end. -/
theorem executeAll_of_breaks {ops : List Operation} {texts : List (List String)} {part : List String}
    {last : List Event} {fault : SessionFault} (h : Breaks server ops texts part last fault) :
    (executeAll server ops).events =
        committed texts ++ (part.map .execute ++ last ++ ending (some fault)) ∧
      (executeAll server ops).result = .error (afterRollback server fault) := by
  obtain ⟨before, op, after, rfl, hbefore, hfails⟩ := h
  obtain ⟨hevents, hfault⟩ := runOperation_of_fails hfails
  rw [executeAll, runOperations_append hbefore, Nat.zero_add]
  simp only [runOperations, hfault, hevents, and_self]

/-- A run that completes has no fault. -/
theorem executeAll_of_completes {ops : List Operation} {texts : List (List String)}
    (h : Completes server 0 ops texts) :
    (executeAll server ops).events = committed texts ∧ (executeAll server ops).result = .ok ops := by
  have hrun := runOperations_append h []
  rw [List.append_nil] at hrun
  rw [executeAll, hrun]
  simp [runOperations]

/-! ## Sessions -/

/-- A session carries operations out, by themselves or as the plan for a model. -/
inductive Carries (server : Server) (ops : List Operation) : Outcome (List Operation) → Prop
  | executing : Carries server ops (executeAll server ops)
  | reconciling {options : Settings.Options} {m : Model} (hplan : planOn server options m = .ok ops) :
      Carries server ops (reconcile server options m)

/-- A session asks, and then carries its operations out. -/
theorem Carries.asked {ops : List Operation} {body : Outcome (List Operation)}
    (h : Carries server ops body) :
    body.result = (executeAll server ops).result ∧
      ∃ asked : List (Query × String), body.events =
        asked.map (fun (query, schema) => .query query schema) ++ (executeAll server ops).events := by
  cases h with
  | executing => exact ⟨rfl, [], rfl⟩
  | @reconciling options m hplan =>
    rw [reconcile, hplan]
    refine ⟨rfl, server.rows.asked.map fun query => (query, options.schema), ?_⟩
    rw [List.map_map]
    rfl

/-- Queries are about no statement. -/
theorem foldl_query (asked : List (Query × String)) (l : Ledger) :
    (asked.map fun (query, schema) => Event.query query schema).foldl Ledger.after l = l := by
  induction asked with
  | nil => rfl
  | cons question rest ih => exact ih

/-- The last event of an operation that fails drops what is pending, or leaves it to the end of the
connection. -/
theorem foldl_ending (l : Ledger) (fault : SessionFault) :
    Ledger.drop ((ending (some fault)).foldl Ledger.after l) = l.drop := by
  rw [ending]
  cases fault.isHandled with
  | true => exact l.drop_drop
  | false => rfl

/-- The end of a connection around a session that failed: what is pending is dropped, with or without a
rollback before. -/
theorem foldl_closing (l : Ledger) (fault : SessionFault) :
    ((if fault.isDatabase then [Event.rollback] else []) ++ [Event.close]).foldl Ledger.after l = l.drop := by
  cases fault.isDatabase with
  | true => exact l.drop_drop
  | false => rfl

/-- What a server is told of the statement that fails is at most this statement. -/
theorem Breaks.last_eq {ops : List Operation} {texts : List (List String)} {part : List String}
    {last : List Event} {fault : SessionFault} (h : Breaks server ops texts part last fault) :
    last = [] ∨ ∃ sql, last = [.fail sql] := by
  obtain ⟨before, op, after, -, -, hfails⟩ := h
  cases hfails with
  | composing => exact .inl rfl
  | rendering => exact .inl rfl
  | executing => exact .inr ⟨_, rfl⟩
  | committing => exact .inl rfl

/-- The end of an operation is no statement. -/
theorem filter_ending (fault : SessionFault) :
    (ending (some fault)).filter Event.isStatement = [] := by
  rw [ending]
  cases fault.isHandled <;> rfl

/-- The way out of a session that failed goes well: the operation is rolled back, what is left is rolled back
with the connection, and the connection is closed. -/
structure EndsWell (server : Server) (ends : Ending) : Prop where
  operation : server.refusesRollback = none
  rollback : ends.rollback = none
  close : ends.close = none

/-- The fault that reaches the caller of a session that breaks with a fault: the last of those on the way
out. -/
def surfaced (server : Server) (ends : Ending) (fault : SessionFault) : SessionFault :=
  let left := afterRollback server fault
  (if left.isDatabase then left.replacedBy ends.rollback else left).replacedBy ends.close

/-- Where the way out goes well, the first fault reaches the caller. -/
theorem surfaced_of_endsWell {ends : Ending} (h : EndsWell server ends) (fault : SessionFault) :
    surfaced server ends fault = fault := by
  obtain ⟨hoperation, hrollback, hclose⟩ := h
  simp only [surfaced, afterRollback, hoperation, hrollback, hclose, SessionFault.replacedBy, ite_self]

section

variable {ops : List Operation} {body : Outcome (List Operation)} {texts : List (List String)}
variable {part : List String} {last : List Event} {fault : SessionFault}

/-- The events of a session that breaks: what it asks and commits, the operation that it breaks at, and the
end of the connection. -/
theorem events_of_breaks (hcarries : Carries server ops body) (h : Breaks server ops texts part last fault)
    (connection : String) (ends : Ending) :
    ∃ asked : List (Query × String), (connected connection none body ends).events =
      .connect connection :: (asked.map (fun (query, schema) => .query query schema) ++
        committed texts ++ part.map .execute ++ last ++ ending (some fault) ++
        (if (afterRollback server fault).isDatabase then [.rollback] else [])) ++ [.close] := by
  obtain ⟨hresult, asked, hevents⟩ := hcarries.asked
  obtain ⟨hrun, hfault⟩ := executeAll_of_breaks h
  refine ⟨asked, ?_⟩
  simp only [connected, hresult, hfault, hevents, hrun, List.append_assoc, List.cons_append]

/-- The result of a session that breaks is the last fault on the way out. -/
theorem result_of_breaks (hcarries : Carries server ops body) (h : Breaks server ops texts part last fault)
    (connection : String) (ends : Ending) :
    (connected connection none body ends).result = .error (surfaced server ends fault) := by
  have hresult : body.result = .error (afterRollback server fault) :=
    hcarries.asked.1.trans (executeAll_of_breaks h).2
  simp only [connected, hresult, surfaced]
  cases ends.close <;> rfl

/-- A session that completes has no fault where the connection is closed. -/
theorem result_of_completes (hcarries : Carries server ops body) (h : Completes server 0 ops texts)
    (connection : String) {ends : Ending} (hclose : ends.close = none) :
    (connected connection none body ends).result = .ok ops := by
  have hresult : body.result = .ok ops := hcarries.asked.1.trans (executeAll_of_completes h).2
  simp only [connected, hresult, hclose]

/-- Where the way out goes well, a session with a fault breaks with it, and a session that breaks with a fault
has it. -/
theorem result_eq_error_iff (hcarries : Carries server ops body) (connection : String) {ends : Ending}
    (hends : EndsWell server ends) :
    (connected connection none body ends).result = .error fault ↔
      ∃ texts part last, Breaks server ops texts part last fault := by
  constructor
  · intro hfault
    rcases completes_or_breaks server ops with ⟨texts, hcompletes⟩ | ⟨texts, part, last, fault', h⟩
    · rw [result_of_completes hcarries hcompletes connection hends.close] at hfault
      cases hfault
    · rw [result_of_breaks hcarries h, surfaced_of_endsWell hends] at hfault
      obtain rfl := Except.error.inj hfault
      exact ⟨texts, part, last, h⟩
  · rintro ⟨texts, part, last, h⟩
    rw [result_of_breaks hcarries h, surfaced_of_endsWell hends]

/-- What became of the statements of a session that breaks. -/
theorem ledger_of_breaks (hcarries : Carries server ops body) (h : Breaks server ops texts part last fault)
    (connection : String) (ends : Ending) :
    Ledger.of (connected connection none body ends).events = ⟨texts.flatten, [], part⟩ := by
  obtain ⟨asked, hevents⟩ := events_of_breaks hcarries h connection ends
  have hlast : ∀ l : Ledger, last.foldl Ledger.after l = l := by
    rcases h.last_eq with rfl | ⟨sql, rfl⟩ <;> exact fun l => rfl
  have hconnect : Ledger.after {} (.connect connection) = {} := rfl
  rw [hevents, Ledger.of, List.cons_append, List.foldl_cons, hconnect, List.append_assoc,
    List.foldl_append, foldl_closing, List.foldl_append, foldl_ending, List.foldl_append, hlast,
    List.foldl_append, Ledger.foldl_execute, List.foldl_append, foldl_query, foldl_committed rfl]
  rfl

/-- The statements that a session sends before it breaks. -/
theorem statements_of_breaks (hcarries : Carries server ops body)
    (h : Breaks server ops texts part last fault) (connection : String) (ends : Ending) :
    (connected connection none body ends).events.filter Event.isStatement =
      (texts.flatten ++ part).map .execute ++ last := by
  obtain ⟨asked, hevents⟩ := events_of_breaks hcarries h connection ends
  have hasked : (asked.map fun (query, schema) => Event.query query schema).filter Event.isStatement =
      [] := by
    rw [List.filter_eq_nil_iff]
    rintro e he
    obtain ⟨question, -, rfl⟩ := List.mem_map.mp he
    exact Bool.false_ne_true
  have hlast : last.filter Event.isStatement = last := by
    rcases h.last_eq with rfl | ⟨sql, rfl⟩ <;> rfl
  have hclosing : ((if (afterRollback server fault).isDatabase then [Event.rollback] else []) ++
      [Event.close]).filter Event.isStatement = [] := by
    cases (afterRollback server fault).isDatabase <;> rfl
  rw [hevents, List.cons_append, List.filter_cons_of_neg Bool.false_ne_true, List.append_assoc]
  simp only [List.filter_append] at hclosing ⊢
  rw [hclosing, hasked, filter_committed, filter_execute, hlast, filter_ending, List.map_append]
  simp

/-- A session that breaks closes the connection once, at the end. -/
theorem close_of_breaks (hcarries : Carries server ops body) (h : Breaks server ops texts part last fault)
    (connection : String) (ends : Ending) :
    ∃ before, (connected connection none body ends).events = before ++ [.close] ∧ .close ∉ before := by
  obtain ⟨asked, hevents⟩ := events_of_breaks hcarries h connection ends
  refine ⟨_, hevents, ?_⟩
  have hlast : Event.close ∉ last := by
    rcases h.last_eq with rfl | ⟨sql, rfl⟩ <;> simp
  have hending : Event.close ∉ ending (some fault) := by
    rw [ending]
    cases fault.isHandled <;> simp
  have hrollback : Event.close ∉ if (afterRollback server fault).isDatabase then [Event.rollback] else [] := by
    cases (afterRollback server fault).isDatabase <;> simp
  simp [committed, hlast, hending, hrollback]

/-- Where the way out goes well, a session fails exactly where its operations break, and its fault reaches the
caller as it is.  However the way out goes, a session that breaks keeps the statements of the operations
before, drops those of the operation that it breaks at, sends nothing after the statement that fails, and closes
the connection once, at the end; the caller then gets the last fault on the way out. -/
theorem session_commits_prefix (hcarries : Carries server ops body) (connection : String) (ends : Ending) :
    (EndsWell server ends → ∀ fault, (connected connection none body ends).result = .error fault ↔
      ∃ texts part last, Breaks server ops texts part last fault) ∧
    ∀ texts part last fault, Breaks server ops texts part last fault →
      Ledger.of (connected connection none body ends).events = ⟨texts.flatten, [], part⟩ ∧
      (connected connection none body ends).events.filter Event.isStatement =
        (texts.flatten ++ part).map .execute ++ last ∧
      (∃ before, (connected connection none body ends).events = before ++ [.close] ∧ .close ∉ before) ∧
      (connected connection none body ends).result = .error (surfaced server ends fault) :=
  ⟨fun hends _ => result_eq_error_iff hcarries connection hends, fun _ _ _ _ hbreaks =>
    ⟨ledger_of_breaks hcarries hbreaks connection ends, statements_of_breaks hcarries hbreaks connection ends,
      close_of_breaks hcarries hbreaks connection ends, result_of_breaks hcarries hbreaks connection ends⟩⟩

end

/-- A server that is interrupted at its third statement. -/
def interrupted : Server where
  refuses := some (3, ⟨.interrupt, "stop"⟩)

/-- A schema, a function with its trigger, and another schema. -/
def triggerRun : List Operation :=
  [.createSchema "app", .createUpdatedTrigger "app" "post", .createSchema "late"]

/-- An interrupt between the function and the trigger keeps the first schema and drops the function. -/
theorem session_commits_prefix_interrupted :
    Carries interrupted triggerRun (executeAll interrupted triggerRun) ∧ EndsWell interrupted {} ∧
      ∃ texts part last,
        Breaks interrupted triggerRun texts part last (.failure ⟨.interrupt, "stop"⟩) ∧
        texts.flatten = ["CREATE SCHEMA IF NOT EXISTS \"app\""] ∧ part.length = 1 := by
  have hcarries : Carries interrupted triggerRun (executeAll interrupted triggerRun) := .executing
  have hends : EndsWell interrupted {} := ⟨rfl, rfl, rfl⟩
  obtain ⟨hresult, hbreaks⟩ := session_commits_prefix hcarries "db" {}
  obtain ⟨texts, part, last, h⟩ := (hresult hends (.failure ⟨.interrupt, "stop"⟩)).mp (by decide +kernel)
  have hledger := (hbreaks texts part last _ h).1
  have hkept : (Ledger.of (connected "db" none (executeAll interrupted triggerRun)).events).kept =
      ["CREATE SCHEMA IF NOT EXISTS \"app\""] := by decide +kernel
  have hdropped :
      (Ledger.of (connected "db" none (executeAll interrupted triggerRun)).events).dropped.length = 1 := by
    decide +kernel
  rw [hledger] at hkept hdropped
  exact ⟨hcarries, hends, texts, part, last, h, hkept, hdropped⟩

/-- A server whose connection is lost at the third statement, so that no rollback reaches it either. -/
def lost : Server where
  refuses := some (3, ⟨.value, "bad value"⟩)
  refusesRollback := some ⟨.database, "the connection is lost"⟩

-- The first schema is kept and the connection is closed, but the caller hears of the rollback only.
example : (connected "db" none (executeAll lost triggerRun)).result =
      .error (.failure ⟨.database, "the connection is lost"⟩) ∧
    (Ledger.of (connected "db" none (executeAll lost triggerRun)).events).kept =
      ["CREATE SCHEMA IF NOT EXISTS \"app\""] := by decide +kernel

/-! ## Statements and operations -/

/-- An operation has a statement with a certain text. -/
def Writes (op : Operation) (sql : String) : Prop :=
  ∃ statements, op.statements = .ok statements ∧ ∃ s ∈ statements, Operation.renderStatement s = .ok sql

/-- The texts of an operation are those of its statements. -/
theorem writes_of_render {op : Operation} {t : List String} (h : op.render = .ok t) {sql : String}
    (hsql : sql ∈ t) : Writes op sql := by
  obtain ⟨statements, hstatements, ht⟩ := bind_eq_ok.mp h
  obtain ⟨s, hs, hrender⟩ := exists_left_of_forall₂ (mapM_eq_ok_iff.mp ht) hsql
  exact ⟨statements, hstatements, s, hs, hrender⟩

/-- An operation that fails has told the server of its own statements only. -/
theorem Fails.writes {op : Operation} {part : List String} {last : List Event} {fault : SessionFault}
    (h : Fails server ran op part last fault) :
    (∀ sql ∈ part, Writes op sql) ∧ ∀ e ∈ last, ∃ sql, e = .fail sql ∧ Writes op sql := by
  have hfirst : ∀ {before after : List Sql.Statement} {part : List String},
      op.statements = .ok (before ++ after) → before.mapM Operation.renderStatement = .ok part →
      ∀ sql ∈ part, Writes op sql := by
    intro before after part hstatements hbefore sql hsql
    obtain ⟨s, hs, hrender⟩ := exists_left_of_forall₂ (mapM_eq_ok_iff.mp hbefore) hsql
    exact ⟨_, hstatements, s, List.mem_append_left after hs, hrender⟩
  cases h with
  | composing => exact ⟨nofun, nofun⟩
  | rendering hstatements hbefore => exact ⟨hfirst hstatements hbefore, nofun⟩
  | executing hstatements hbefore _ hs =>
    refine ⟨hfirst hstatements hbefore, fun e he => ?_⟩
    exact ⟨_, List.mem_singleton.mp he, _, hstatements, _, by simp, hs⟩
  | committing hrender => exact ⟨fun sql hsql => writes_of_render hrender hsql, nofun⟩

/-- What a server is told to execute is a statement of an operation, and so is what it refuses. -/
theorem exists_writes_of_mem {ops : List Operation} {body : Outcome (List Operation)}
    (hcarries : Carries server ops body) {sql : String}
    (h : .execute sql ∈ body.events ∨ .fail sql ∈ body.events) : ∃ op ∈ ops, Writes op sql := by
  have hcommitted : ∀ {ops : List Operation} {texts : List (List String)},
      List.Forall₂ (fun op t => op.render = .ok t) ops texts →
      .execute sql ∈ committed texts ∨ .fail sql ∈ committed texts → ∃ op ∈ ops, Writes op sql := by
    intro ops texts hrendered htold
    simp only [committed, List.mem_flatMap, List.mem_append, List.mem_map, Event.execute.injEq,
      exists_eq_right, List.mem_singleton, reduceCtorEq, or_false, and_false, exists_false] at htold
    obtain ⟨t, ht, hsql⟩ := htold
    obtain ⟨op, hop, hrender⟩ := exists_left_of_forall₂ hrendered ht
    exact ⟨op, hop, writes_of_render hrender hsql⟩
  obtain ⟨-, asked, hevents⟩ := hcarries.asked
  rw [hevents] at h
  rcases completes_or_breaks server ops with ⟨texts, hcompletes⟩ | ⟨texts, part, last, fault, hbreaks⟩
  · rw [(executeAll_of_completes hcompletes).1] at h
    exact hcommitted hcompletes.rendered (by simpa using h)
  · rw [(executeAll_of_breaks hbreaks).1] at h
    obtain ⟨before, op, after, rfl, hbefore, hfails⟩ := hbreaks
    obtain ⟨hpart, hlast⟩ := hfails.writes
    have hending : .execute sql ∉ ending (some fault) ∧ .fail sql ∉ ending (some fault) := by
      rw [ending]
      cases fault.isHandled <;> simp
    have hcases : (.execute sql ∈ committed texts ∨ .fail sql ∈ committed texts) ∨ sql ∈ part ∨
        .execute sql ∈ last ∨ .fail sql ∈ last := by
      simp only [List.mem_append, List.mem_map, reduceCtorEq, and_false, exists_false, false_or,
        Event.execute.injEq, exists_eq_right, hending.1, hending.2, or_false] at h
      tauto
    rcases hcases with htold | hsql | hsql | hsql
    · obtain ⟨op', hop', hwrites⟩ := hcommitted hbefore.rendered htold
      exact ⟨op', List.mem_append_left _ hop', hwrites⟩
    · exact ⟨op, by simp, hpart sql hsql⟩
    · obtain ⟨sql', heq, -⟩ := hlast _ hsql
      cases heq
    · obtain ⟨sql', heq, hwrites⟩ := hlast _ hsql
      obtain rfl := Event.fail.inj heq
      exact ⟨op, by simp, hwrites⟩

/-- A session without a fault has each operation carried out in full. -/
theorem executes_of_ok {ops done : List Operation} {body : Outcome (List Operation)}
    (hcarries : Carries server ops body) (hresult : body.result = .ok done) {op : Operation} (hop : op ∈ ops) :
    ∃ t, op.render = .ok t ∧ ∀ sql ∈ t, .execute sql ∈ body.events := by
  obtain ⟨hsame, asked, hevents⟩ := hcarries.asked
  rw [hsame] at hresult
  rcases completes_or_breaks server ops with ⟨texts, hcompletes⟩ | ⟨texts, part, last, fault, hbreaks⟩
  · obtain ⟨t, ht, hrender⟩ := exists_right_of_forall₂ hcompletes.rendered hop
    refine ⟨t, hrender, fun sql hsql => ?_⟩
    rw [hevents, (executeAll_of_completes hcompletes).1, committed]
    refine List.mem_append_right _ (List.mem_flatMap.mpr ⟨t, ht, List.mem_append_left _ ?_⟩)
    exact List.mem_map_of_mem hsql
  · rw [(executeAll_of_breaks hbreaks).2] at hresult
    cases hresult

end Session

end SchemaReconcile.Catalog
