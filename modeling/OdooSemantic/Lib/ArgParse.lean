import OdooSemantic.Lib.Fallible
import OdooSemantic.Lib.PyText

/-!
# `argparse`

A command line is a list of words. The parser reads each word by itself, as an option, as a
plain argument or as neither, and only then looks at which word stands behind which. So a value
that is written behind its option is not seen as its value if, by itself, it reads as an
option; and it does as soon as it begins with `-`, a negative number and a text with a space
in it excepted.

`loop_blocks` is the way back from a list of options and values to the words and through the
parser again, and `loop_of_not_argument` is where it stops. `mem_extras` follows a word the
parser does not know.
-/

namespace OdooSemantic
namespace ArgParse

variable {V : Type}

/-! ## Parsers -/

inductive Action (V : Type) where
  /-- `store_true` and the like: no argument. -/
  | storeConst (const : V)
  /-- One argument, converted by `type`. -/
  | store (type : String → Option V)
  | help

structure OptionAction (V : Type) where
  optionStrings : List String
  dest : String
  action : Action V
  /-- `none` is `SUPPRESS`. -/
  default : Option V
  required : Bool := false

def helpAction : OptionAction V := ⟨["-h", "--help"], "help", .help, none, false⟩

/-- A parser without positional arguments, whose only short option is `-h`. -/
structure ArgumentParser (V : Type) where
  /-- Beside `-h`. -/
  options : List (OptionAction V)
  /-- Mutually exclusive groups, of which one member is required each. -/
  exclusive : List (List String) := []

/-- A parser with subparsers, one of which is required. -/
structure CommandParser (V : Type) where
  commands : List (String × ArgumentParser V)

/-- Why nothing is returned. -/
inductive Stop where
  /-- `parser.error`: exit status 2. -/
  | usage
  /-- The help is printed: exit status 0. -/
  | help
deriving DecidableEq

/-! ## Reading one word -/

/-- What stands behind the option in the same word. -/
inductive Attached where
  | nothing
  /-- `--option=text` -/
  | equals (text : String)
  /-- `-otext` -/
  | joined (text : String)
deriving DecidableEq

inductive Reading (V : Type) where
  | argument
  /-- The word `--`. -/
  | dashes
  | option (a : OptionAction V) (attached : Attached)
  | ambiguous
  /-- It looks like an option, and is none of this parser. -/
  | unknown

/-- `^-\d+$|^-\d*\.\d+$`; the end may be before a final newline. -/
def isNegativeNumber (s : String) : Bool :=
  match s.toList with
  | '-' :: cs =>
      let cs := if cs.getLast? = some '\n' then cs.dropLast else cs
      match cs.dropWhile PyText.isDecimal with
      | [] => !cs.isEmpty
      | '.' :: fraction => !fraction.isEmpty && fraction.all PyText.isDecimal
      | _ => false
  | _ => false

/-- The text before the first `=`. -/
def beforeEquals (s : String) : String := String.ofList (s.toList.takeWhile (· ≠ '='))

/-- The text behind the first `=`. -/
def afterEquals (s : String) : Option String :=
  match s.toList.dropWhile (· ≠ '=') with
  | _ :: text => some (String.ofList text)
  | [] => none

def attachedEquals (s : String) : Attached := (afterEquals s).elim .nothing .equals

namespace ArgumentParser

variable (p : ArgumentParser V)

def actions : List (OptionAction V) := helpAction :: p.options

/-- `_option_string_actions[s]` -/
def optionAt (s : String) : Option (OptionAction V) :=
  p.actions.find? fun a => s ∈ a.optionStrings

/-- `_get_option_tuples(s)`: the options the word may abbreviate, and a short option that it
    may begin with. -/
def optionTuples (s : String) : List (OptionAction V × Attached) :=
  p.actions.flatMap fun a => a.optionStrings.filterMap fun o =>
    match s.toList with
    | '-' :: '-' :: _ =>
        if (beforeEquals s).toList <+: o.toList then some (a, attachedEquals s) else none
    | cs =>
        if o.toList = cs.take 2 then some (a, .joined (String.ofList (cs.drop 2)))
        else if cs <+: o.toList then some (a, .nothing)
        else none

/-- `_has_negative_number_optionals` -/
def hasNegativeNumberOptionals : Bool :=
  p.actions.any fun a => a.optionStrings.any isNegativeNumber

/-- A word that begins with `-` and is none of the options may still be an argument. -/
def mayBeArgument (s : String) : Bool :=
  (isNegativeNumber s && !p.hasNegativeNumberOptionals) || ' ' ∈ s.toList

/-- `_parse_optional(s)`, and the test for `--` before it. -/
def reading (s : String) : Reading V :=
  if s = "--" then .dashes
  else if s.toList.head? ≠ some '-' then .argument
  else
    match p.optionAt s with
    | some a => .option a .nothing
    | none =>
        if s = "-" then .argument
        else
          match afterEquals s, p.optionAt (beforeEquals s) with
          | some text, some a => .option a (.equals text)
          | _, _ =>
              match p.optionTuples s with
              | [(a, attached)] => .option a attached
              | [] => if p.mayBeArgument s then .argument else .unknown
              | _ => .ambiguous

/-! ## Reading the words one after the other -/

end ArgumentParser

/-- `vars(namespace)`, the actions whose `dest` has been seen, and what is left over. -/
structure Parse (V : Type) where
  vars : List (String × V)
  seen : List String := []
  extras : List String := []

/-- `setattr(namespace, dest, value)` -/
def setAttr (dest : String) (value : V) (vars : List (String × V)) : List (String × V) :=
  vars.map fun v => if v.1 = dest then (dest, value) else v

/-- What a parser whose only short option is `-h` makes of the letters behind it. -/
def joinedToHelp : List Char → Stop
  | [] => .help
  | '-' :: _ => .usage
  | 'h' :: '=' :: _ => .usage
  | 'h' :: cs => joinedToHelp cs
  | _ => .help

namespace ArgumentParser

variable (p : ArgumentParser V)

/-- `take_action` -/
def takeAction (a : OptionAction V) (value : V) (st : Parse V) : Except Stop (Parse V) :=
  if p.exclusive.any fun group =>
      a.dest ∈ group && group.any fun dest => dest ≠ a.dest && dest ∈ st.seen then
    .error .usage
  else .ok { st with vars := setAttr a.dest value st.vars, seen := a.dest :: st.seen }

/-- `take_action` for an option with one argument. -/
def takeArgument (a : OptionAction V) (type : String → Option V) (text : String)
    (st : Parse V) : Except Stop (Parse V) :=
  match type text with
  | some value => p.takeAction a value st
  | none => .error .usage

/-- `_parse_known_args`, up to the checks at its end. -/
def loop : List String → Parse V → Except Stop (Parse V)
  | [], st => .ok st
  | s :: rest, st =>
      match p.reading s with
      | .argument => loop rest { st with extras := st.extras ++ [s] }
      | .unknown => loop rest { st with extras := st.extras ++ [s] }
      | .dashes => .ok { st with extras := st.extras ++ s :: rest }
      | .ambiguous => .error .usage
      | .option a attached =>
          match a.action, attached with
          | .storeConst value, .nothing => (p.takeAction a value st).bind fun st => loop rest st
          | .storeConst _, _ => .error .usage
          | .help, .nothing => .error .help
          | .help, .joined text => .error (joinedToHelp text.toList)
          | .help, .equals _ => .error .usage
          | .store type, .equals text => (p.takeArgument a type text st).bind fun st => loop rest st
          | .store type, .joined text => (p.takeArgument a type text st).bind fun st => loop rest st
          | .store type, .nothing =>
              match rest with
              | [] => .error .usage
              | text :: rest =>
                  match p.reading text with
                  | .argument => (p.takeArgument a type text st).bind fun st => loop rest st
                  | _ => .error .usage

/-- The namespace before any word is read. -/
def defaults : Parse V where
  vars := p.options.filterMap fun a => a.default.map fun value => (a.dest, value)

/-- Whatever is required has been seen. -/
def complete (st : Parse V) : Bool :=
  (p.options.all fun a => !a.required || a.dest ∈ st.seen) &&
    p.exclusive.all fun group => group.any (· ∈ st.seen)

/-- `parse_known_args` -/
def parseKnownArgs (args : List String) : Except Stop (Parse V) :=
  (p.loop args p.defaults).bind fun st => if p.complete st then .ok st else .error .usage

end ArgumentParser

namespace CommandParser

variable (c : CommandParser V)

/-- The subparser gets every word behind the command. -/
def runCommand (command : String) (args : List String) (extras : List String) :
    Except Stop (String × List (String × V)) :=
  match c.commands.lookup command with
  | none => .error .usage
  | some p =>
      (p.parseKnownArgs args).bind fun st =>
        if extras ++ st.extras = [] then .ok (command, st.vars) else .error .usage

/-- The words before the command. -/
def parseFrom (extras : List String) : List String → Except Stop (String × List (String × V))
  | [] => .error .usage
  | s :: rest =>
      match (ArgumentParser.mk (V := V) [] []).reading s with
      | .argument => c.runCommand s rest extras
      | .dashes =>
          match rest with
          | [] => .error .usage
          | command :: args => c.runCommand command args extras
      | .unknown => parseFrom (extras ++ [s]) rest
      | .ambiguous => .error .usage
      | .option _ .nothing => .error .help
      | .option _ (.joined text) => .error (joinedToHelp text.toList)
      | .option _ (.equals _) => .error .usage

/-- `parse_args(args)` -/
def parseArgs (args : List String) : Except Stop (String × List (String × V)) :=
  c.parseFrom [] args

end CommandParser

/-! ## Blocks -/

/-- An option as it is written, with its argument where it has one, and what is meant by it. -/
structure Block (V : Type) where
  option : OptionAction V
  /-- Which of its names is written. -/
  name : String
  text : Option String
  value : V

def Block.words (b : Block V) : List String :=
  match b.text with
  | none => [b.name]
  | some text => [b.name, text]

namespace ArgumentParser

variable {p : ArgumentParser V}

/-- The words of the block read as what they are meant to be. -/
structure Fits (p : ArgumentParser V) (b : Block V) : Prop where
  name : p.reading b.name = .option b.option .nothing
  text : match b.option.action, b.text with
    | .storeConst const, none => b.value = const
    | .store type, some text => p.reading text = .argument ∧ type text = some b.value
    | _, _ => False

/-- What the block does to the namespace. -/
def accept (p : ArgumentParser V) (st : Parse V) (b : Block V) : Except Stop (Parse V) :=
  p.takeAction b.option b.value st

theorem loop_block {b : Block V} (h : p.Fits b) (rest : List String) (st : Parse V) :
    p.loop (b.words ++ rest) st = (p.accept st b).bind (p.loop rest) := by
  obtain ⟨hname, htext⟩ := h
  unfold Block.words accept
  cases haction : b.option.action with
  | help =>
    rw [haction] at htext
    exact htext.elim
  | storeConst const =>
    cases hb : b.text with
    | some text =>
      rw [haction, hb] at htext
      exact htext.elim
    | none =>
      rw [haction, hb] at htext
      dsimp only at htext ⊢
      rw [List.singleton_append, loop, hname, htext]
      dsimp only
      rw [haction]
  | store type =>
    cases hb : b.text with
    | none =>
      rw [haction, hb] at htext
      exact htext.elim
    | some text =>
      rw [haction, hb] at htext
      dsimp only at htext ⊢
      rw [List.cons_append, List.singleton_append, loop, hname]
      dsimp only
      rw [haction]
      dsimp only
      rw [htext.1]
      dsimp only
      rw [takeArgument, htext.2]

/-- **Written and read back**: the words of blocks that fit do what the blocks do. -/
theorem loop_blocks {bs : List (Block V)} (h : ∀ b ∈ bs, p.Fits b) (rest : List String)
    (st : Parse V) :
    p.loop (bs.flatMap Block.words ++ rest) st = (bs.foldlM p.accept st).bind (p.loop rest) := by
  induction bs generalizing st with
  | nil => rfl
  | cons b bs ih =>
    rw [List.flatMap_cons, List.append_assoc, loop_block (h b List.mem_cons_self), List.foldlM_cons]
    cases p.accept st b with
    | error e => rfl
    | ok st' => exact ih (fun c hc => h c (List.mem_cons_of_mem _ hc)) st'

/-- **A value that does not read as an argument is an error**, whatever is written around it. -/
theorem loop_of_not_argument {o text : String} {a : OptionAction V} {type : String → Option V}
    (ho : p.reading o = .option a .nothing) (haction : a.action = .store type)
    (htext : p.reading text ≠ .argument) (rest : List String) (st : Parse V) :
    p.loop (o :: text :: rest) st = .error .usage := by
  rw [loop, ho]
  dsimp only
  rw [haction]
  dsimp only
  split
  · rename_i harg
    exact absurd harg htext
  · rfl

/-- A word that reads as an argument: it does not begin with `-`, or it is `-` alone, or no option
    can be read into it and it looks like a negative number or has a space in it. -/
def Plain (p : ArgumentParser V) (s : String) : Prop :=
  s.toList.head? ≠ some '-' ∨ p.optionAt s = none ∧ (s = "-" ∨
    s ≠ "--" ∧ (afterEquals s = none ∨ p.optionAt (beforeEquals s) = none) ∧
      p.optionTuples s = [] ∧ p.mayBeArgument s = true)

theorem reading_eq_argument_iff {s : String} : p.reading s = .argument ↔ p.Plain s := by
  by_cases hdash : s.toList.head? = some '-'
  · have hplain : p.Plain s ↔ p.optionAt s = none ∧ (s = "-" ∨
        s ≠ "--" ∧ (afterEquals s = none ∨ p.optionAt (beforeEquals s) = none) ∧
          p.optionTuples s = [] ∧ p.mayBeArgument s = true) := by
      simp [Plain, hdash]
    rw [hplain]
    by_cases hdashes : s = "--"
    · subst hdashes
      simp [reading]
    · rw [reading, if_neg hdashes, if_neg (not_not_intro hdash)]
      cases hat : p.optionAt s with
      | some a => simp
      | none =>
        dsimp only
        by_cases hone : s = "-"
        · simp [hone]
        · rw [if_neg hone]
          cases hequals : afterEquals s <;> cases hbefore : p.optionAt (beforeEquals s) <;>
            rcases htuples : p.optionTuples s with _ | ⟨t, _ | ⟨u, ts⟩⟩ <;>
            cases hmay : p.mayBeArgument s <;> simp_all
  · have hne : s ≠ "--" := by
      intro heq
      rw [heq] at hdash
      exact hdash (by decide)
    rw [reading, if_neg hne, if_pos hdash]
    exact iff_of_true rfl (Or.inl hdash)

/-! ## Words the parser does not know -/

theorem extras_takeAction {a : OptionAction V} {value : V} {st st' : Parse V}
    (h : p.takeAction a value st = .ok st') : st'.extras = st.extras := by
  unfold takeAction at h
  split at h
  · exact absurd h (by simp)
  · rw [← Except.ok.inj h]

theorem extras_takeArgument {a : OptionAction V} {type : String → Option V} {text : String}
    {st st' : Parse V} (h : p.takeArgument a type text st = .ok st') : st'.extras = st.extras := by
  unfold takeArgument at h
  split at h
  · exact extras_takeAction h
  · exact absurd h (by simp)

/-- What is left over in the end: what was left over before, and the unknown words. -/
def LeftOver (p : ArgumentParser V) (args : List String) (st st' : Parse V) : Prop :=
  (∀ s ∈ st.extras, s ∈ st'.extras) ∧ ∀ s ∈ args, p.reading s = .unknown → s ∈ st'.extras

/-- A word that is known leaves the rest to the words behind it. -/
theorem LeftOver.cons {s : String} {rest : List String} {st st1 st' : Parse V}
    (hs : p.reading s ≠ .unknown) (hextras : st1.extras = st.extras)
    (h : p.LeftOver rest st1 st') : p.LeftOver (s :: rest) st st' := by
  refine ⟨fun t ht => h.1 t (hextras ▸ ht), fun t ht hunknown => ?_⟩
  cases List.mem_cons.mp ht with
  | inl heq => exact absurd (heq ▸ hunknown) hs
  | inr hmem => exact h.2 t hmem hunknown

/-- **A word the parser does not know is left over**: it is nobody's value. -/
theorem leftOver_loop {args : List String} {st st' : Parse V} (h : p.loop args st = .ok st') :
    p.LeftOver args st st' := by
  fun_induction p.loop args st with
  | case1 st =>
    obtain rfl := Except.ok.inj h
    exact ⟨fun _ hs => hs, fun _ hs => absurd hs (by simp)⟩
  | case2 s rest st hs ih =>
    obtain ⟨hold, hrest⟩ := ih h
    refine ⟨fun t ht => hold t (List.mem_append_left _ ht), fun t ht hunknown => ?_⟩
    cases List.mem_cons.mp ht with
    | inl heq => exact hold t (List.mem_append_right _ (List.mem_singleton.mpr heq))
    | inr hmem => exact hrest t hmem hunknown
  | case3 s rest st hs ih =>
    obtain ⟨hold, hrest⟩ := ih h
    refine ⟨fun t ht => hold t (List.mem_append_left _ ht), fun t ht hunknown => ?_⟩
    cases List.mem_cons.mp ht with
    | inl heq => exact hold t (List.mem_append_right _ (List.mem_singleton.mpr heq))
    | inr hmem => exact hrest t hmem hunknown
  | case4 s rest st hs =>
    obtain rfl := Except.ok.inj h
    exact ⟨fun _ ht => List.mem_append_left _ ht, fun _ ht _ => List.mem_append_right _ ht⟩
  | case6 s rest st a value haction hs ih =>
    obtain ⟨st1, htake, hloop⟩ := Fallible.of_bind_eq_ok h
    exact .cons (by rw [hs]; simp) (extras_takeAction htake) (ih st1 hloop)
  | case11 s rest st a type haction text hs ih =>
    obtain ⟨st1, htake, hloop⟩ := Fallible.of_bind_eq_ok h
    exact .cons (by rw [hs]; simp) (extras_takeArgument htake) (ih st1 hloop)
  | case12 s rest st a type haction text hs ih =>
    obtain ⟨st1, htake, hloop⟩ := Fallible.of_bind_eq_ok h
    exact .cons (by rw [hs]; simp) (extras_takeArgument htake) (ih st1 hloop)
  | case14 s st a type haction text rest htext hs ih =>
    obtain ⟨st1, htake, hloop⟩ := Fallible.of_bind_eq_ok h
    exact .cons (by rw [hs]; simp) rfl
      (.cons (by rw [htext]; simp) (extras_takeArgument htake) (ih st1 hloop))
  | _ => exact absurd h (by simp)

end ArgumentParser

namespace CommandParser

variable {c : CommandParser V} {command : String} {p : ArgumentParser V}

/-- A word that does not begin with `-` is the command. -/
theorem parseArgs_cons (hdash : command.toList.head? ≠ some '-')
    (hp : c.commands.lookup command = some p) (args : List String) :
    c.parseArgs (command :: args) = (p.parseKnownArgs args).bind fun st =>
      if st.extras = [] then .ok (command, st.vars) else .error .usage := by
  have hne : command ≠ "--" := by
    intro heq
    rw [heq] at hdash
    exact hdash (by decide)
  unfold parseArgs parseFrom
  rw [ArgumentParser.reading, if_neg hne, if_pos hdash]
  dsimp only
  rw [runCommand, hp]
  rfl

/-- A command line with a word that the subparser does not know is not accepted. -/
theorem parseArgs_of_unknown (hdash : command.toList.head? ≠ some '-')
    (hp : c.commands.lookup command = some p) {args : List String} {s : String} (hs : s ∈ args)
    (hunknown : p.reading s = .unknown) (result : String × List (String × V)) :
    c.parseArgs (command :: args) ≠ .ok result := by
  intro h
  rw [parseArgs_cons hdash hp] at h
  obtain ⟨st, hknown, hrest⟩ := Fallible.of_bind_eq_ok h
  obtain ⟨st', hloop, hcomplete⟩ := Fallible.of_bind_eq_ok hknown
  have hleft := (ArgumentParser.leftOver_loop hloop).2 s hs hunknown
  split at hcomplete
  · obtain rfl := Except.ok.inj hcomplete
    rw [if_neg (fun hnil => absurd hleft (by simp [hnil]))] at hrest
    exact absurd hrest (by simp)
  · exact absurd hcomplete (by simp)

/-- **The round trip**: the words of blocks that fit, behind their command, parse to what the
    blocks mean. -/
theorem parseArgs_blocks (hdash : command.toList.head? ≠ some '-')
    (hp : c.commands.lookup command = some p) {bs : List (Block V)} (h : ∀ b ∈ bs, p.Fits b)
    {st : Parse V} (hst : bs.foldlM p.accept p.defaults = .ok st) (hcomplete : p.complete st = true)
    (hextras : st.extras = []) :
    c.parseArgs (command :: bs.flatMap Block.words) = .ok (command, st.vars) := by
  have hloop := ArgumentParser.loop_blocks h [] p.defaults
  rw [List.append_nil, hst] at hloop
  rw [parseArgs_cons hdash hp, ArgumentParser.parseKnownArgs, hloop]
  show ((if p.complete st = true then Except.ok st else Except.error Stop.usage).bind _ : Except Stop _) = _
  rw [if_pos hcomplete]
  show (if st.extras = [] then _ else _) = _
  rw [if_pos hextras]

/-- **An argument that does not read as one** ends the parse. -/
theorem parseArgs_of_not_argument (hdash : command.toList.head? ≠ some '-')
    (hp : c.commands.lookup command = some p) {bs : List (Block V)} (h : ∀ b ∈ bs, p.Fits b)
    {o text : String} {a : OptionAction V} {type : String → Option V}
    (ho : p.reading o = .option a .nothing) (haction : a.action = .store type)
    (htext : p.reading text ≠ .argument) (rest : List String)
    (result : String × List (String × V)) :
    c.parseArgs (command :: (bs.flatMap Block.words ++ o :: text :: rest)) ≠ .ok result := by
  intro hok
  rw [parseArgs_cons hdash hp] at hok
  obtain ⟨st, hknown, -⟩ := Fallible.of_bind_eq_ok hok
  obtain ⟨st', hloop, -⟩ := Fallible.of_bind_eq_ok hknown
  rw [ArgumentParser.loop_blocks h] at hloop
  obtain ⟨st1, -, hrest⟩ := Fallible.of_bind_eq_ok hloop
  rw [ArgumentParser.loop_of_not_argument ho haction htext] at hrest
  exact absurd hrest (by simp)

end CommandParser

end ArgParse
end OdooSemantic
