import VennDiagram.Command.Run
import VennDiagram.Proofs.Formula.Closed
import VennDiagram.Proofs.Text.Utf8

/-!
# `VennDiagram.Proofs.Command.Solving`: deciding the formula in a file

The command `solve` is given the path of a file. Whatever text the file holds, the command ends, and its
status and output tell what the text is: no formula, a formula with a model, or a formula without one.
`execute_solve_decides` is this statement, from the arguments to the output.

It is put together from what the stages do. The only arguments that get so far are a path
(`eq_of_parse_solve`). The bytes of a text are read as that text, up to line ends, which do not matter to
a formula (`read_unifyLineEnds`). A text that is read names the variables up to its count only, so its
verdict is a model, or there is none (`Formula.decide_cases_of_closed`). The literals that are written
are the model (`map_var_literalsOf`, `exists_mem_literalsOf_iff`).
-/

set_option autoImplicit false

namespace VennDiagram

namespace Dimacs

/-- The kind of its line ends does not matter to a text. -/
theorem read_unifyLineEnds (text : String) :
    read (String.ofList (Text.unifyLineEnds text.toList)) = read text := by
  rw [read, read, numberedLines, numberedLines, String.toList_ofList, Text.lines_unifyLineEnds]

/-! ### The text of a model -/

/-- The literals that are true under values for the variables from one on. -/
def literalsOf (values : List Bool) : List Literal := (values.zipIdx 1).map fun (b, var) => ⟨var, b⟩

/-- Every variable has one literal, in order. -/
theorem map_var_literalsOf (values : List Bool) :
    (literalsOf values).map Literal.var = List.range' 1 values.length := by
  rw [literalsOf, List.map_map]
  exact List.zipIdx_map_snd 1 values

/-- The literals are the true ones. -/
theorem mem_literalsOf_iff {values : List Bool} {l : Literal} :
    l ∈ literalsOf values ↔ l.eval (.ofList values) = some true := by
  obtain ⟨var, positive⟩ := l
  have hmem : ⟨var, positive⟩ ∈ literalsOf values ↔ (positive, var) ∈ values.zipIdx 1 := by
    simp [literalsOf]
  rw [hmem, List.mem_zipIdx_iff_le_and_getElem?_sub, Literal.eval]
  cases var with
  | zero => simp [Assignment.ofList]
  | succ i => simp [Assignment.ofList, Literal.holds_eq]

/-- A clause is true when one of its literals is among them. -/
theorem exists_mem_literalsOf_iff {values : List Bool} {c : Clause} :
    (∃ l ∈ c, l ∈ literalsOf values) ↔ c.eval (.ofList values) = some true := by
  simp only [mem_literalsOf_iff, Clause.eval_eq_some_true_iff]

end Dimacs

namespace Command

/-! ### The arguments -/

section
variable {σ : Type} {g : Grammar σ} {s : σ} {argument : String} {r : Reading σ}

/-- A single argument is read as one item. -/
theorem Grammar.exists_items_singleton {items : List (String × Item σ)}
    (hitems : g.items [argument] = .ok items) : ∃ i, items = [(argument, i)] := by
  rw [Grammar.items] at hitems
  split at hitems
  · exact ⟨.separator, (Except.ok.inj hitems).symm⟩
  · obtain ⟨i, -, hitems⟩ := bind_eq_ok_iff.mp hitems
    exact ⟨i, (Except.ok.inj hitems).symm⟩

/-- Of the items a single argument can be, only a plain one leaves an operand behind. -/
theorem Grammar.walk_singleton (hoperand : g.operand.isSome = true) (hrest : g.takesRest = false)
    {i : Item σ} (hwalk : g.walk (.start s) [(argument, i)] = .ok r) (hr : r.operand.isSome = true) :
    r.operand = some argument ∧ r.surplus = [] := by
  have hwants : g.wantsOperand (.start s) = true := by simp [wantsOperand, hoperand, Reading.start]
  -- Only an argument that is neither an option nor a separator becomes the operand.
  cases i with
  | separator =>
    simp only [walk, hwants, hrest, if_true, Bool.false_and, Bool.false_eq_true, if_false,
      Except.ok.injEq] at hwalk
    simp [← hwalk, Reading.start] at hr
  | plain =>
    simp only [walk, hwants, hrest, if_true, Bool.false_eq_true, if_false, Except.ok.injEq] at hwalk
    exact ⟨by rw [← hwalk], by rw [← hwalk]; rfl⟩
  | unknown =>
    simp only [walk, Except.ok.injEq] at hwalk
    simp [← hwalk, Reading.leave, Reading.start] at hr
  | help => simp [walk] at hwalk
  | unused f value => simp [walk] at hwalk
  | given f value =>
    rw [walk] at hwalk
    obtain ⟨stored, hstored, hwalk⟩ := bind_eq_ok_iff.mp hwalk
    obtain rfl := Except.ok.inj hwalk
    obtain ⟨settings, -, rfl⟩ := map_eq_ok_iff.mp hstored
    simp [Reading.start] at hr
  | awaiting f => simp [walk] at hwalk

/-- A single argument that is read is the operand, if an operand is needed and takes nothing along. -/
theorem Grammar.operand_of_read (hoperand : g.operand.isSome = true) (hrest : g.takesRest = false)
    (hread : g.read s [argument] = .ok r) : r.operand = some argument ∧ r.surplus = [] := by
  rw [Grammar.read] at hread
  obtain ⟨items, hitems, hread⟩ := bind_eq_ok_iff.mp hread
  obtain ⟨i, rfl⟩ := exists_items_singleton (mapError_eq_ok_iff.mp hitems)
  obtain ⟨r', hwalk, hread⟩ := bind_eq_ok_iff.mp hread
  -- What is read without an operand is complained about.
  have hneeded : r' = r ∧ r.operand.isSome = true := by
    obtain ⟨name, hname⟩ := Option.isSome_iff_exists.mp hoperand
    cases hr' : r'.operand with
    | none => simp [hname, hr'] at hread
    | some x =>
      obtain rfl : r' = r := by simpa [hname, hr'] using hread
      exact ⟨rfl, by rw [hr']; rfl⟩
  obtain ⟨rfl, hr⟩ := hneeded
  exact walk_singleton hoperand hrest hwalk hr

end

/-- The arguments after the name of a command are left to the command. -/
theorem read_program_solve {argument : String} {r : Reading (Option String)}
    (hread : programGrammar.read (some "INFO") ["solve", argument] = .ok r) :
    r = ⟨some "INFO", some "solve", [argument], [], false⟩ := by
  rw [Grammar.read] at hread
  obtain ⟨items, hitems, hread⟩ := bind_eq_ok_iff.mp hread
  have hplain : programGrammar.item "solve" = .ok .plain := rfl
  obtain ⟨rest, hrest, hitems⟩ := bind_eq_ok_iff.mp
    (show (programGrammar.items [argument] >>= fun is => pure (("solve", .plain) :: is)) = .ok items from
      mapError_eq_ok_iff.mp hitems)
  obtain ⟨i, rfl⟩ := Grammar.exists_items_singleton hrest
  obtain rfl := Except.ok.inj hitems
  exact (Except.ok.inj hread).symm

/-- Once the name of a command is read, the command line is what the command reads without surplus. -/
theorem parse_eq_ok_iff {arguments : List String} {r : Reading (Option String)} {name : Name}
    {line : CommandLine} (hread : programGrammar.read (some "INFO") arguments = .ok r)
    (hname : Name.all.find? (·.text == r.operand.getD "") = some name) (hsurplus : r.surplus = []) :
    Invocation.parse arguments = .ok line ↔
      ∃ invocation, Invocation.read name r.rest = .ok (invocation, []) ∧
        line = ⟨r.settings, invocation⟩ := by
  rw [Invocation.parse, hread]
  simp only [Except.mapError, bind, Except.bind, hname, hsurplus, List.isEmpty_nil, Bool.true_and]
  cases Invocation.read name r.rest with
  | error stop => simp
  | ok command =>
    obtain ⟨invocation, surplus⟩ := command
    cases surplus with
    | nil => simp [pure, Except.pure, eq_comm]
    | cons argument surplus => simp

/-- What `solve` is given is a path, and no level of the log is asked for. -/
theorem eq_of_parse_solve {argument : String} {line : CommandLine}
    (hparse : Invocation.parse ["solve", argument] = .ok line) :
    line = ⟨some "INFO", .solve argument⟩ := by
  obtain ⟨r, hread, -⟩ := bind_eq_ok_iff.mp hparse
  have hread := mapError_eq_ok_iff.mp hread
  obtain rfl := read_program_solve hread
  obtain ⟨invocation, hcommand, rfl⟩ := (parse_eq_ok_iff hread rfl rfl).mp hparse
  obtain ⟨r, hsolve, hinvocation⟩ := bind_eq_ok_iff.mp hcommand
  rw [(Grammar.operand_of_read rfl rfl hsolve).1] at hinvocation
  obtain ⟨rfl, -⟩ := Prod.mk.inj (Except.ok.inj hinvocation)
  rfl

/-- An argument that does not begin with a minus is a path. -/
theorem parse_solve {argument : String} (hargument : argument.toList.head? ≠ some '-') :
    Invocation.parse ["solve", argument] = .ok ⟨some "INFO", .solve argument⟩ := by
  have hseparator : argument ≠ "--" := by
    rintro rfl
    exact hargument rfl
  -- An argument that does not begin with a dash is taken as it is, by either of the grammars.
  have hitem {σ : Type} (g : Grammar σ) : g.items [argument] = .ok [(argument, .plain)] := by
    have hplain : g.item argument = .ok .plain := by
      rw [Grammar.item]
      split
      · rename_i hlist
        simp [hlist] at hargument
      · rfl
    simp only [Grammar.items, hseparator, if_false, hplain]
    rfl
  have hprogram : programGrammar.read (some "INFO") ["solve", argument]
      = .ok ⟨some "INFO", some "solve", [argument], [], false⟩ := by
    have hitems : programGrammar.items ["solve", argument]
        = .ok [("solve", .plain), (argument, .plain)] := by
      have hplain : programGrammar.item "solve" = .ok .plain := rfl
      rw [Grammar.items, if_neg (by decide), hplain, hitem]
      rfl
    rw [Grammar.read, hitems]
    rfl
  have hsolve : solveGrammar.read () [argument] = .ok ⟨(), some argument, [], [], true⟩ := by
    rw [Grammar.read, hitem]
    rfl
  refine (parse_eq_ok_iff hprogram rfl rfl).mpr ⟨.solve argument, ?_, rfl⟩
  rw [Invocation.read, hsolve]
  rfl

/-! ### The answer -/

/-- The log that is shown when no level is asked for. -/
theorem leastRank_default (invocation : Invocation) :
    (⟨some "INFO", invocation⟩ : CommandLine).leastRank = .ok 20 := rfl

variable {files : Files.Tree} {path text : String} {line : CommandLine}

/-- The answer to a text that is no formula. The files stay as they are. -/
theorem execute_of_error [Json.Limits] (hparse : Invocation.parse ["solve", path] = .ok line)
    (hfile : files.read (Files.plain path) = .ok text.toUTF8.toList) {e : Dimacs.Error}
    (hread : Dimacs.read text = .error e) (elapsed : Float) :
    execute files ["solve", path] elapsed
      = .ok ⟨reportedStatus, "", Log.render 20 [errorEntry e.message], files⟩ := by
  obtain rfl := eq_of_parse_solve hparse
  have hstart : Invocation.startSolve files.read path = .error (.reported [e.message]) := by
    simp only [Invocation.startSolve, hfile, Files.textOf_toUTF8, Dimacs.read_unifyLineEnds, hread]
  simp only [execute, hparse, leastRank_default, Invocation.start, hstart]
  rfl

/-- The answer to a formula. The files stay as they are. -/
theorem execute_of_ok [Json.Limits] (hparse : Invocation.parse ["solve", path] = .ok line)
    (hfile : files.read (Files.plain path) = .ok text.toUTF8.toList) {d : Dimacs.Document}
    (hread : Dimacs.read text = .ok d) (elapsed : Float) :
    ∃ log, execute files ["solve", path] elapsed
      = .ok ⟨if d.formula.decide.ok then 10 else 20, Dimacs.writeResult d.formula.decide, log, files⟩ := by
  obtain rfl := eq_of_parse_solve hparse
  have hstart : Invocation.startSolve files.read path
      = .ok (.decided d.formula d.formula.decide) := by
    simp only [Invocation.startSolve, hfile, Files.textOf_toUTF8, Dimacs.read_unifyLineEnds, hread]
  refine ⟨Log.render 20 (solveOutcome d.formula d.formula.decide elapsed).log, ?_⟩
  simp only [execute, hparse, leastRank_default, Invocation.start, hstart]
  rfl

/-- What an answer tells about a text. -/
structure Decides (text : String) (answer : Answer) : Prop where
  refused_iff : answer.status = 2 ↔ ∃ e, Dimacs.read text = .error e
  refused_output : answer.status = 2 → answer.output = ""
  sat_iff : answer.status = 10 ↔ ∃ d, Dimacs.read text = .ok d ∧ d.formula.HasModel
  /-- The output has one literal of every variable, in order, and every clause has one of them. -/
  sat_output : answer.status = 10 → ∃ (d : Dimacs.Document) (literals : List Literal),
    Dimacs.read text = .ok d ∧
    literals.map Literal.var = List.range' 1 d.numVars ∧
    (∀ c ∈ d.clauses, ∃ l ∈ c, l ∈ literals) ∧
    answer.output = "s SATISFIABLE\nv " ++
      " ".intercalate (literals.map (fun l => toString l.toInt) ++ ["0"]) ++ "\n"
  unsat_iff : answer.status = 20 ↔ ∃ d, Dimacs.read text = .ok d ∧ ¬ d.formula.HasModel
  unsat_output : answer.status = 20 → answer.output = "s UNSATISFIABLE\n"

/-- The statuses tell the cases apart, so an answer decides a text if its case is right. -/
theorem Decides.of_case {answer : Answer}
    (hcase : (answer.status = 2 ∧ answer.output = "" ∧ ∃ e, Dimacs.read text = .error e) ∨
      (∃ d values, Dimacs.read text = .ok d ∧ values.length = d.numVars ∧
        (∀ c ∈ d.clauses, c.eval (.ofList values) = some true) ∧ answer.status = 10 ∧
        answer.output = "s SATISFIABLE\nv " ++ Dimacs.writeClause (Dimacs.literalsOf values) ++ "\n") ∨
      ∃ d, Dimacs.read text = .ok d ∧ ¬ d.formula.HasModel ∧ answer.status = 20 ∧
        answer.output = "s UNSATISFIABLE\n") : Decides text answer := by
  rcases hcase with ⟨hstatus, houtput, e, hread⟩ |
    ⟨d, values, hread, hlength, htrue, hstatus, houtput⟩ | ⟨d, hread, hnone, hstatus, houtput⟩
  · constructor <;> simp [hstatus, houtput, hread]
  · have hliterals : (Dimacs.literalsOf values).map Literal.var = List.range' 1 d.numVars := by
      rw [Dimacs.map_var_literalsOf, hlength]
    have hclauses : ∀ c ∈ d.clauses, ∃ l ∈ c, l ∈ Dimacs.literalsOf values := fun c hc =>
      Dimacs.exists_mem_literalsOf_iff.mpr (htrue c hc)
    have hcovers : (Assignment.ofList values).Covers d.numVars := by
      rw [← hlength]
      exact Assignment.covers_ofList values
    have hmodel : d.formula.HasModel := ⟨_, hcovers, htrue⟩
    constructor
    -- Only what is printed needs the literals; the rest follows from the status.
    case sat_output =>
      exact fun _ => ⟨d, Dimacs.literalsOf values, hread, hliterals, hclauses, houtput⟩
    all_goals simp [hstatus, hread, hmodel]
  · constructor <;> simp [hstatus, houtput, hread, hnone]

/-- Whatever text a file holds, `solve` ends with an answer that decides it. -/
theorem execute_solve_decides [Json.Limits] (hparse : Invocation.parse ["solve", path] = .ok line)
    (hfile : files.read (Files.plain path) = .ok text.toUTF8.toList) (elapsed : Float) :
    ∃ answer, execute files ["solve", path] elapsed = .ok answer ∧ Decides text answer := by
  cases hread : Dimacs.read text with
  | error e =>
    exact ⟨_, execute_of_error hparse hfile hread elapsed, .of_case (.inl ⟨rfl, rfl, e, hread⟩)⟩
  | ok d =>
    obtain ⟨log, hanswer⟩ := execute_of_ok hparse hfile hread elapsed
    refine ⟨_, hanswer, .of_case (.inr ?_)⟩
    rcases Formula.decide_cases_of_closed (Dimacs.closed_formula hread) with
      ⟨values, hlength, htrue, hverdict⟩ | ⟨hverdict, hnone⟩
    · refine .inl ⟨d, values, hread, hlength, htrue, ?_, ?_⟩
      · simp [Result.ok, hverdict]
      · simp [Dimacs.writeResult, hverdict, Dimacs.literalsOf]
    · refine .inr ⟨d, hread, hnone, ?_, ?_⟩
      · simp [Result.ok, hverdict]
      · simp [Dimacs.writeResult, hverdict]

/-- A file in the directory of the program, with two clauses over three variables. -/
def twoClauses : Files.Tree := ⟨[], [(["f.cnf"], "p cnf 3 2\n1 -2 0\n2 0".toUTF8.toList)]⟩

/-- A file with two clauses, and a variable that none of them names. -/
theorem execute_solve_decides_two_clauses :
    Invocation.parse ["solve", "f.cnf"] = .ok ⟨some "INFO", .solve "f.cnf"⟩ ∧
    twoClauses.read (Files.plain "f.cnf") = .ok "p cnf 3 2\n1 -2 0\n2 0".toUTF8.toList ∧
    ∃ answer, execute twoClauses ["solve", "f.cnf"] 0 = .ok answer ∧
      Decides "p cnf 3 2\n1 -2 0\n2 0" answer := by
  have hparse : Invocation.parse ["solve", "f.cnf"] = .ok ⟨some "INFO", .solve "f.cnf"⟩ :=
    parse_solve (by decide)
  have hfile : twoClauses.read (Files.plain "f.cnf")
      = .ok "p cnf 3 2\n1 -2 0\n2 0".toUTF8.toList := by rfl
  exact ⟨hparse, hfile, execute_solve_decides hparse hfile 0⟩

end Command
end VennDiagram
