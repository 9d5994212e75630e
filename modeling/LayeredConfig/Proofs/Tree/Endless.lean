/-
  LayeredConfig/Proofs/Tree/Endless.lean
  ======================================
  **A read without end.**

  `every_read_comes_back` asks that the host puts finitely many texts with tokens
  into what its functions answer.  It has to.  In the tree `endless` a host function
  answers tables whose texts grow with its argument, so that every table holds a
  next one under the key `x`, and under the key `y` the name of the `y` in the
  next one.  The read of `a.y` begins the read of `a.x.y`, that one the read of
  `a.x.x.y`, and so on: no path is read twice, and no more than one expansion is
  open at any moment.
-/
import LayeredConfig.Proofs.Template.Rewriting
import LayeredConfig.Proofs.Tree.FinitePaths

namespace LayeredConfig

/-! ### The tree -/

namespace Endless

def token (body : List Char) : String := String.ofList (Template.rewrap body)

def callBody (name : Char) (arg : List Char) : List Char :=
  ['c', 'a', 'l', 'l', ':', name, '(', '\''] ++ arg ++ ['\'', ')']

/-- The body of a token that names the entry `y` of a table. -/
def entryBody (table : List Char) : List Char :=
  ['c', 'o', 'n', 'f', 'i', 'g', ':'] ++ table ++ ['.', 'y']

def onText (f : List Char → Value) : HostFunction
  | [.string s] => some (f s.toList)
  | _ => none

/-- The table with this name, in which the tokens are still to be written. -/
def tableOf (name : List Char) : Value :=
  .table [("x", .string (token (callBody 'g' (name ++ ['.', 'x'])))),
    ("y", .string (token (callBody 'h' (name ++ ['.', 'x']))))]

def tableText (name : List Char) : String := token (callBody 'f' name)

def entryText (name : List Char) : String := token (entryBody name)

def functions : List (String × HostFunction) :=
  [("f", onText tableOf), ("g", onText fun name => .string (tableText name)),
    ("h", onText fun name => .string (entryText name))]

def references : Resolver := ⟨0, .labelled "config" .reference⟩

def calls : Resolver := ⟨1, .labelled "call" (.call functions)⟩

def tree : Tree where
  data := [("a", .string (tableText ['a']))]
  chain := [references, calls]
  loader := Loader.empty

theorem isBuiltIn : tree.IsBuiltIn := by
  intro r hr
  rcases List.mem_cons.1 hr with rfl | hr
  · trivial
  · rw [List.mem_singleton.1 hr]
    trivial

/-! ### Names of tables -/

/-- The name of the table `n` levels below the first one. -/
def name (n : Nat) : List Char := 'a' :: (List.replicate n ['.', 'x']).flatten

theorem name_succ (n : Nat) : name n ++ ['.', 'x'] = name (n + 1) := by
  simp [name, List.replicate_succ']

/-- What holds of three characters holds of all characters of a name. -/
theorem forall_mem_name {P : Char → Prop} (ha : P 'a') (hdot : P '.') (hx : P 'x') (n : Nat) :
    ∀ c ∈ name n, P c := by
  intro c hc
  simp only [name, List.mem_cons, List.mem_flatten, List.mem_replicate] at hc
  rcases hc with rfl | ⟨_, ⟨-, rfl⟩, hc⟩
  · exact ha
  · simp only [List.mem_cons, List.not_mem_nil, or_false] at hc
    rcases hc with rfl | rfl
    · exact hdot
    · exact hx

/-- The path to the entry `y` of the table `n` levels below the first one. -/
def entryPath (n : Nat) : KeyPath := ⟨"a" :: (List.replicate n "x" ++ ["y"])⟩

theorem split_cons_sep {c sep : Char} (h : c ≠ sep) (s : List Char) :
    Text.split sep (c :: sep :: s) = [c] :: Text.split sep s := by
  simp [Text.split, h]

theorem split_name {c : Char} (hc : c ≠ '.') (n : Nat) :
    Text.split '.' (c :: ((List.replicate n ['.', 'x']).flatten ++ ['.', 'y'])) =
      [c] :: (List.replicate n ['x'] ++ [['y']]) := by
  induction n generalizing c with
  | zero => exact split_cons_sep hc ['y']
  | succ n ih =>
    have hx := ih (c := 'x') (by decide)
    rw [List.replicate_succ, List.flatten_cons, List.append_assoc]
    exact (split_cons_sep hc _).trans (congrArg ([c] :: ·) hx)

theorem parse_entry (n : Nat) :
    KeyPath.parse (String.ofList (name n ++ ['.', 'y'])) = entryPath n := by
  have hne : String.ofList (name n ++ ['.', 'y']) ≠ "" := by
    intro h
    have := congrArg String.toList h
    simp [name] at this
  have hsplit := split_name (c := 'a') (by decide) n
  rw [KeyPath.parse, if_neg hne, String.toList_ofList, name, List.cons_append, hsplit]
  simp [entryPath]

/-! ### Call expressions -/

/-- The character may stand between quotation marks as it is. -/
def IsLetter (c : Char) : Prop := c ≠ '\'' ∧ c ≠ '\\' ∧ c ≠ '\n'

theorem readString?_append {s : List Char} (hs : ∀ c ∈ s, IsLetter c) :
    CallExpr.readString? '\'' (s ++ ['\'']) = some (s, []) := by
  induction s with
  | nil => rfl
  | cons c rest ih =>
    obtain ⟨hquote, hescape, -⟩ := hs c List.mem_cons_self
    have hrest := ih fun d hd => hs d (List.mem_cons_of_mem _ hd)
    rw [List.cons_append, CallExpr.readString?, if_neg hquote, hrest]
    · rfl
    · exact fun h _ => hescape h
    · exact fun d more h _ => hescape h

theorem readArgs_text {s : List Char} (hs : ∀ c ∈ s, IsLetter c) :
    CallExpr.readArgs ('\'' :: (s ++ ['\''])) = .ok [.string (String.ofList s)] := by
  have harg : CallExpr.readArg (Text.trimStart ('\'' :: (s ++ ['\'']))) =
      .ok (.string (String.ofList s), []) := by
    change CallExpr.readArg ('\'' :: (s ++ ['\''])) = _
    simp [CallExpr.readArg, readString?_append hs]
  rw [CallExpr.readArgs]
  split
  next h => 
    rw [harg] at h
    cases h
  next v rest h =>
    rw [harg] at h
    cases h
    rfl

theorem mem_functionNames {fn : Char} (hfn : fn ∈ ['f', 'g', 'h']) :
    fn = 'f' ∨ fn = 'g' ∨ fn = 'h' := by
  simpa using hfn

theorem splitForm?_call {fn : Char} (hfn : fn ∈ ['f', 'g', 'h']) {s : List Char}
    (hs : ∀ c ∈ s, IsLetter c) :
    CallExpr.splitForm? (fn :: '(' :: '\'' :: (s ++ ['\'', ')'])) =
      some ([fn], '\'' :: (s ++ ['\''])) := by
  have hend : Text.trimEnd ('\'' :: (s ++ ['\'', ')'])) = '\'' :: (s ++ ['\'', ')']) := by
    simp [Text.trimEnd, Text.isBlank]
  have hnewline : ('\'' :: s.reverse ++ ['\'']).contains '\n' = false := by
    rw [List.contains_eq_mem, decide_eq_false_iff_not]
    intro hmem
    simp only [List.cons_append, List.mem_cons, List.mem_append, List.mem_reverse,
      List.not_mem_nil, or_false, Char.reduceEq, false_or] at hmem
    exact (hs _ hmem).2.2 rfl
  have hname : CallExpr.isNameChar fn = true ∧ CallExpr.isNameStart fn = true ∧
      Text.isBlank fn = false := by
    rcases mem_functionNames hfn with rfl | rfl | rfl <;> exact ⟨rfl, rfl, rfl⟩
  obtain ⟨hchar, hstart, hblank⟩ := hname
  have htrim : ∀ rest, Text.trimStart (fn :: rest) = fn :: rest := by
    intro rest
    rw [Text.trimStart_cons, hblank]
    rfl
  let rest := '\'' :: (s ++ ['\'', ')'])
  have hparen : CallExpr.isNameChar '(' = false := rfl
  have htake : (fn :: '(' :: rest).takeWhile CallExpr.isNameChar = [fn] := by simp [hchar, hparen]
  have hdrop : (fn :: '(' :: rest).dropWhile CallExpr.isNameChar = '(' :: rest := by
    simp [hchar, hparen]
  have hopen : Text.trimStart ('(' :: rest) = '(' :: rest := rfl
  have hreverse : rest.reverse = ')' :: ('\'' :: s.reverse ++ ['\'']) := by simp [rest]
  simp only [rest] at htake hdrop hopen hreverse
  simp only [CallExpr.splitForm?, htrim, htake, hdrop, hopen, hend, hreverse, hnewline, hstart,
    List.head?_cons, Option.any_some, Bool.not_true, Bool.false_eq_true, if_false]
  simp

theorem parse_call {fn : Char} (hfn : fn ∈ ['f', 'g', 'h']) {s : List Char}
    (hs : ∀ c ∈ s, IsLetter c) :
    CallExpr.parse (String.ofList (fn :: '(' :: '\'' :: (s ++ ['\'', ')']))) =
      .ok ⟨String.ofList [fn], [.string (String.ofList s)]⟩ := by
  have hblank : Text.allBlank ('\'' :: (s ++ ['\''])) = false := rfl
  simp only [CallExpr.parse, String.toList_ofList, splitForm?_call hfn hs, hblank,
    readArgs_text hs, Bool.false_eq_true, if_false]

/-! ### Answers -/

section Answers

variable {replies : Replies} {g : Guards}

/-- A token is shown to a resolver with its body, which keeps the text if it has no answer. -/
theorem process_token {r : Resolver} {body mid : List Char} {c d : Char}
    (hbody : Template.IsBody body) (heq : body = c :: (mid ++ [d])) (hc : Text.isBlank c = false)
    (hd : Text.isBlank d = false) :
    r.process replies g (.string (token body)) = do
      let answer ← r.ask replies g (String.ofList body)
      return (answer.filter Value.isTruthy).getD (.string (token body)) := by
  have htrim : Text.trim ([' '] ++ (c :: (mid ++ [d])) ++ [' ']) = c :: (mid ++ [d]) :=
    Text.trim_around rfl rfl hc hd
  have hbody' : Text.trim (' ' :: (body ++ [' '])) = body := by
    rw [heq]
    exact htrim
  have hwhole : Template.wholeToken? (token body).toList = some (' ' :: (body ++ [' '])) := by
    rw [token, String.toList_ofList, Template.wholeToken?_rewrap hbody]
  rw [process_of_whole hwhole, hbody']

theorem isBody_name (n : Nat) : Template.IsBody (name n) :=
  forall_mem_name (P := fun c => Template.isBrace c = false) rfl rfl rfl n

theorem isBody_callBody {fn : Char} (hfn : fn ∈ ['f', 'g', 'h']) (n : Nat) :
    Template.IsBody (callBody fn (name n)) := by
  have hleft : Template.IsBody ['c', 'a', 'l', 'l', ':', fn, '(', '\''] := by
    rcases mem_functionNames hfn with rfl | rfl | rfl <;> exact Template.isBody_of_all rfl
  have hright : Template.IsBody ['\'', ')'] := Template.isBody_of_all rfl
  exact (hleft.append (isBody_name n)).append hright

theorem isBody_entryBody (n : Nat) : Template.IsBody (entryBody (name n)) := by
  have hleft : Template.IsBody ['c', 'o', 'n', 'f', 'i', 'g', ':'] := Template.isBody_of_all rfl
  have hright : Template.IsBody ['.', 'y'] := Template.isBody_of_all rfl
  exact (hleft.append (isBody_name n)).append hright

theorem rest?_callBody {fn : Char} (hfn : fn ∈ ['f', 'g', 'h']) (s : List Char) :
    Resolver.rest? "call" (String.ofList (callBody fn s)) =
      some (String.ofList (fn :: '(' :: '\'' :: (s ++ ['\'', ')']))) := by
  have hblank : Text.isBlank fn = false := by
    rcases mem_functionNames hfn with rfl | rfl | rfl <;> rfl
  have hprefix : Text.dropPrefix? ("call".toList ++ [':']) (callBody fn s) =
      some (fn :: '(' :: '\'' :: (s ++ ['\'', ')'])) := rfl
  have htrim : Text.trim ([] ++ (fn :: (('(' :: '\'' :: (s ++ ['\''])) ++ [')'])) ++ []) = _ :=
    Text.trim_around rfl rfl hblank rfl
  simp only [List.nil_append, List.append_nil, List.cons_append, List.append_assoc] at htrim
  rw [Resolver.rest?_ofList, hprefix, Option.map_some, htrim]

theorem rest?_entryBody (n : Nat) :
    Resolver.rest? "config" (String.ofList (entryBody (name n))) =
      some (String.ofList (name n ++ ['.', 'y'])) := by
  have hprefix : Text.dropPrefix? ("config".toList ++ [':']) (entryBody (name n)) =
      some (name n ++ ['.', 'y']) := rfl
  have htrim : Text.trim ([] ++ ('a' :: (((List.replicate n ['.', 'x']).flatten ++ ['.']) ++ ['y']))
      ++ []) = _ := Text.trim_around rfl rfl rfl rfl
  simp only [List.nil_append, List.append_nil, List.append_assoc, List.cons_append] at htrim
  rw [Resolver.rest?_ofList, hprefix, Option.map_some, name, List.cons_append, htrim]

/-- The first resolver has no answer to a call. -/
theorem ask_references {fn : Char} (s : List Char) :
    (references.ask replies g (String.ofList (callBody fn s))).result = .ok none := by
  have hrest : Resolver.rest? "config" (String.ofList (callBody fn s)) = none := by
    rw [Resolver.rest?_ofList]
    rfl
  rw [Resolver.ask_result]
  simp only [Resolver.answer, references, hrest]
  rfl

/-- The second resolver answers a call with the value of the function. -/
theorem ask_calls {fn : Char} (hfn : fn ∈ ['f', 'g', 'h']) (n : Nat) {f : List Char → Value}
    (hf : functions.lookup (String.ofList [fn]) = some (onText f)) :
    (calls.ask replies g (String.ofList (callBody fn (name n)))).result =
      .ok (some (f (name n))) := by
  have hletters : ∀ c ∈ name n, IsLetter c :=
    forall_mem_name (by simp [IsLetter]) (by simp [IsLetter]) (by simp [IsLetter]) n
  have hvalue : onText f [.string (String.ofList (name n))] = some (f (name n)) := by
    rw [onText, String.toList_ofList]
  let call : CallExpr := ⟨String.ofList [fn], [.string (String.ofList (name n))]⟩
  have hcall : ((Dialogue.ofExcept (.ok call)).run (replies g)).result = .ok call := rfl
  rw [Resolver.ask_result, ← hvalue]
  simp only [Resolver.answer, calls, rest?_callBody hfn, Resolver.Labelled.answer,
    parse_call hfn hletters, Dialogue.run_bind]
  rw [Outcome.bind_of_ok hcall, hf]
  rfl

/-! ### What the chain makes of the texts -/

theorem isTruthy_token (body : List Char) : (Value.string (token body)).isTruthy = true := by
  have hne : token body ≠ "" := by
    intro h
    have hlist := congrArg String.toList h
    rw [token, String.toList_ofList] at hlist
    cases hlist
  exact decide_eq_true hne

/-- A call gives way to the value of the function. -/
theorem settle_call {fn : Char} (hfn : fn ∈ ['f', 'g', 'h']) (n : Nat) {f : List Char → Value}
    (hf : functions.lookup (String.ofList [fn]) = some (onText f))
    (htruthy : (f (name n)).isTruthy = true) :
    (g.settle replies tree.chain (.string (token (callBody fn (name n))))).result =
      .ok (f (name n)) := by
  have hbody := isBody_callBody hfn n
  have hform : callBody fn (name n) =
      'c' :: ((['a', 'l', 'l', ':', fn, '(', '\''] ++ name n ++ ['\'']) ++ [')']) := by
    simp [callBody]
  have hfirst : (references.process replies g (.string (token (callBody fn (name n))))).result =
      .ok (.string (token (callBody fn (name n)))) := by
    rw [process_token hbody hform rfl rfl, Outcome.bind_of_ok (ask_references (name n))]
    rfl
  have hsecond : (calls.process replies g (.string (token (callBody fn (name n))))).result =
      .ok (f (name n)) := by
    rw [process_token hbody hform rfl rfl, Outcome.bind_of_ok (ask_calls hfn n hf)]
    rw [Option.filter_some, if_pos htruthy]
    rfl
  change (references.process replies g _ >>= fun v => calls.process replies g v >>= pure).result = _
  rw [Outcome.bind_of_ok hfirst, Outcome.bind_of_ok hsecond]
  rfl

/-- The entry `y` gives way to the value at the path that it names. -/
theorem settle_entry (n : Nat) {halt : Halt}
    (hreply : (replies g (.get (entryPath n))).result = .error halt) :
    (g.settle replies tree.chain (.string (entryText (name n)))).result = .error halt := by
  have hform : entryBody (name n) =
      'c' :: ((['o', 'n', 'f', 'i', 'g', ':'] ++ name n ++ ['.']) ++ ['y']) := by
    simp [entryBody]
  have hask : (references.ask replies g (String.ofList (entryBody (name n)))).result =
      .error halt := by
    rw [Resolver.ask_result]
    simp only [Resolver.answer, references, rest?_entryBody, Resolver.Labelled.answer]
    rw [← parse_entry n] at hreply
    exact (congrArg Outcome.result (Dialogue.run_request _ (replies g))).trans hreply
  have hprocess : (references.process replies g (.string (entryText (name n)))).result =
      .error halt := by
    rw [entryText, process_token (isBody_entryBody n) hform rfl rfl, Outcome.bind_of_error hask]
  change (references.process replies g _ >>= _).result = _
  rw [Outcome.bind_of_error hprocess]

end Answers

/-! ### The way to an entry -/

section Way

variable {replies : Replies}

theorem traverseEntries_string {change : String → Outcome Value} {key s : String} {v : Value}
    {rest rest' : List (String × Value)} (hs : (change s).result = .ok v)
    (hrest : (Value.traverseEntries change rest).result = .ok rest') :
    (Value.traverseEntries change ((key, .string s) :: rest)).result = .ok ((key, v) :: rest') := by
  rw [Value.traverseEntries, Value.traverse, Outcome.bind_of_ok hs, Outcome.bind_of_ok hrest]
  rfl

/-- The text of a table becomes the table, which holds the text of the next one and the name of the
    next entry. -/
theorem resolve_tableText (fl : List KeyPath) (room n : Nat) :
    ((⟨fl, room + 1⟩ : Guards).resolve replies tree.chain (.string (tableText (name n)))).result =
      .ok (.table [("x", .string (tableText (name (n + 1)))),
        ("y", .string (entryText (name (n + 1))))]) := by
  have hf : 'f' ∈ ['f', 'g', 'h'] := by decide
  have hg : 'g' ∈ ['f', 'g', 'h'] := by decide
  have hh : 'h' ∈ ['f', 'g', 'h'] := by decide
  have htable : ((⟨fl, room + 1⟩ : Guards).settle replies tree.chain
      (.string (tableText (name n)))).result = .ok (tableOf (name n)) :=
    settle_call (f := tableOf) hf n rfl rfl
  have hx : (expandString replies tree.chain fl room
      (token (callBody 'g' (name (n + 1))))).result = .ok (.string (tableText (name (n + 1)))) :=
    expandString_of_settle (settle_call hg (n + 1) rfl (isTruthy_token _)) rfl
  have hy : (expandString replies tree.chain fl room
      (token (callBody 'h' (name (n + 1))))).result = .ok (.string (entryText (name (n + 1)))) :=
    expandString_of_settle (settle_call hh (n + 1) rfl (isTruthy_token _)) rfl
  rw [Guards.resolve, Value.traverse, expandString, Outcome.bind_of_ok htable]
  have hentries : (Value.traverse (expandString replies tree.chain fl room)
      (tableOf (name n))).result = .ok (.table [("x", .string (tableText (name (n + 1)))),
        ("y", .string (entryText (name (n + 1))))]) := by
    rw [tableOf, name_succ, Value.traverse,
      Outcome.bind_of_ok (traverseEntries_string hx (traverseEntries_string hy rfl))]
    rfl
  exact hentries

/-- From the text of a table, past the texts of those below it, to the name of an entry. -/
theorem walk_tableText (fl : List KeyPath) (room k n : Nat) :
    ((⟨fl, room + 1⟩ : Guards).walk replies tree (some (.string (tableText (name n))))
      (List.replicate k "x" ++ ["y"])).result =
        .ok (some (.string (entryText (name (n + k + 1))))) := by
  induction k generalizing n with
  | zero =>
    change (Guards.walk _ _ _ _ ["y"]).result = _
    rw [Guards.walk, Outcome.bind_of_ok (resolve_tableText fl room n)]
    rfl
  | succ k ih =>
    rw [List.replicate_succ, List.cons_append, Guards.walk,
      Outcome.bind_of_ok (resolve_tableText fl room n)]
    have hrest := ih (n + 1)
    rw [show n + 1 + k + 1 = n + (k + 1) + 1 by omega] at hrest
    exact hrest

theorem find_entryPath (fl : List KeyPath) (room n : Nat) :
    ((⟨fl, room + 1⟩ : Guards).find replies tree (entryPath n)).result =
      .ok (some (.string (entryText (name (n + 1))))) := by
  have hwalk : ((⟨fl, room + 1⟩ : Guards).walk replies tree (some (.string (tableText (name 0))))
      (List.replicate n "x" ++ ["y"])).result = _ := walk_tableText fl room n 0
  rwa [Nat.zero_add] at hwalk

end Way

/-! ### The reads -/

theorem length_entryPath (n : Nat) : (entryPath n).segments.length = n + 2 := by simp [entryPath]

theorem read_of_error {replies : Replies} {t : Tree} {g : Guards} {path : KeyPath} {v : Value}
    {halt : Halt} (hpath : path ∉ g.inFlight)
    (hfind : ((g.enter path).find replies t path).result = .ok (some v))
    (hresolve : ((g.enter path).resolve replies t.chain v).result = .error halt) :
    (g.read replies t path keepAll).result = .error halt := by
  rw [Guards.read_of_not_mem hpath]
  change (Guards.body replies t (g.enter path) path keepAll).result = _
  rw [Guards.body, Outcome.bind_of_ok hfind]
  change ((g.enter path).resolve replies t.chain v >>= _).result = _
  rw [Outcome.bind_of_error hresolve]

/-- The read of an entry ends as the read of the next one does. -/
theorem read_of_reply {replies : Replies} {fl : List KeyPath} {n room : Nat} {halt : Halt}
    (hfl : ∀ path ∈ fl, path.segments.length < n + 2)
    (hreply : (replies ⟨entryPath n :: fl, room + 1⟩ (.get (entryPath (n + 1)))).result =
      .error halt) :
    ((⟨fl, room + 1⟩ : Guards).read replies tree (entryPath n) keepAll).result = .error halt := by
  have hpath : entryPath n ∉ fl := by
    intro hmem
    have hlength := hfl _ hmem
    rw [length_entryPath] at hlength
    omega
  exact read_of_error hpath (find_entryPath _ room n)
    (resolve_of_error (settle_entry (n + 1) hreply))

/-- The questions of the reads run out, however many there may be: each read asks for the entry of
    the table below. -/
theorem read_entryPath (disk : Disk) (steps : Nat) {fl : List KeyPath} {n : Nat}
    (hfl : ∀ path ∈ fl, path.segments.length < n + 2) (room : Nat) :
    ((⟨fl, room + 1⟩ : Guards).read (tree.reply disk steps) tree (entryPath n) keepAll).result =
      .error .exhausted := by
  induction steps generalizing fl n with
  | zero => exact read_of_reply hfl rfl
  | succ steps ih =>
    refine read_of_reply hfl (ih ?_)
    intro path hpath
    rcases List.mem_cons.1 hpath with rfl | hpath
    · rw [length_entryPath]
      omega
    · have := hfl path hpath
      omega

end Endless

/-- **The guards do not end every read.**  A tree of two built-in resolvers, whose host functions
    have a value for every text, has a read that needs more questions than any number. -/
theorem endless_never_comes_back :
    Endless.tree.IsBuiltIn ∧
      (∀ steps, (Endless.tree.getWithin [] ⟨["a", "y"]⟩ steps).result = .error .exhausted) ∧
        ¬ ComesBack (Endless.tree.getWithin [] ⟨["a", "y"]⟩) := by
  have hread : ∀ steps,
      (Endless.tree.getWithin [] ⟨["a", "y"]⟩ steps).result = .error .exhausted := by
    intro steps
    have hfl : ∀ path ∈ ([] : List KeyPath), path.segments.length < 0 + 2 := nofun
    exact Endless.read_entryPath [] steps hfl 63
  refine ⟨Endless.isBuiltIn, hread, ?_⟩
  rintro ⟨x, hx, enough, henough⟩
  apply hx
  rw [← henough enough (Nat.le_refl _)]
  exact hread enough

end LayeredConfig
