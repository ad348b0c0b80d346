import ModuleRoutes.Proofs.Definition.Normalize
import ModuleRoutes.Proofs.HandlerKey
import ModuleRoutes.Proofs.Text.Search
import ModuleRoutes.Registration.Extract

/-!
# The blocks of a router source

A registration opens a block, and only a registration ends the one before. The routes of a source
are those of its blocks, although the pass over the lines makes the route of a block only when the
next one opens (`ModuleRoutes.Registration.routesOf_eq_blocks`): after some lines a pass still owes
the route of its pending registration, with the first label before the next registration if it has
none yet (`ModuleRoutes.Registration.Pass.flush_foldl`).

The blocks of a source are those of the lines before a registration followed by those from it on
(`ModuleRoutes.Registration.blocks_append`), and each registration has one block, labelled by the
first label in it (`ModuleRoutes.Registration.blocks_cons_of_registered`).
-/

namespace ModuleRoutes

namespace Registration

/-- The first stub label before the next registration. -/
def labelBeforeNext? : List (List Char) → Option StubLabel
  | [] => none
  | line :: lines =>
    match registered? line with
    | some _ => none
    | none =>
      match stubLabel? line with
      | some label => some label
      | none => labelBeforeNext? lines

/-- The blocks of a list of lines, each as what is pending at its end: its registration with its
first label. -/
def blocks : List (List Char) → List Pending
  | [] => []
  | line :: lines =>
    match registered? line with
    | some (method, path) =>
      ⟨method, path, (stubLabel? line).orElse fun _ => labelBeforeNext? lines⟩ :: blocks lines
    | none => blocks lines

/-- The lines of the block that a line opens: the line itself and those up to the next
registration. -/
def blockLines (line : List Char) (after : List (List Char)) : List (List Char) :=
  line :: after.takeWhile fun next => (registered? next).isNone

variable {line : List Char} {lines before after : List (List Char)} {method : Method}
  {path : List Char}

/-! ## The pass over the lines -/

/-- A registration as it is at the end of its block, when some lines are still to be read. -/
def Pending.closed (pending : Pending) (lines : List (List Char)) : Pending :=
  { pending with label := pending.label.orElse fun _ => labelBeforeNext? lines }

@[simp]
theorem Pending.closed_nil (pending : Pending) : pending.closed [] = pending := by
  cases pending with
  | mk method path label => cases label <;> rfl

/-- A line without a registration may label what is pending, and only the lines after it may
otherwise. -/
theorem Pending.closed_cons (plain : registered? line = none) (pending : Pending) :
    pending.closed (line :: lines) = (pending.readLabel line).closed lines := by
  cases pending with
  | mk method path label =>
      cases label with
      | some label => rfl
      | none =>
          simp only [closed, readLabel, labelBeforeNext?, plain]
          cases stubLabel? line <;> rfl

/-- No line from the next registration on labels what is pending. -/
theorem Pending.closed_of_registered (registers : registered? line = some (method, path))
    (pending : Pending) : pending.closed (line :: lines) = pending := by
  cases pending with
  | mk method path label => cases label <;> simp [closed, labelBeforeNext?, registers]

theorem blocks_cons_of_not_registered (plain : registered? line = none) :
    blocks (line :: after) = blocks after := by
  rw [blocks, plain]

/-- A registration is pending from its own line on. -/
theorem blocks_cons_eq_closed (registers : registered? line = some (method, path)) :
    blocks (line :: after) =
      (Pending.readLabel line ⟨method, path, none⟩).closed after :: blocks after := by
  rw [blocks, registers]
  rfl

namespace Pass

variable {words : Vocabulary}

/-- What the lines to come make of a pass: the routes so far, then that of the registration still
pending as it is at the end of its block, then those of the blocks to come. -/
theorem flush_foldl (words : Vocabulary) (lines : List (List Char)) (pass : Pass) :
    ((lines.foldl (readLine words) pass).flush words).routes =
      pass.routes ++
        ((pass.pending.map fun pending => pending.closed lines).toList ++ blocks lines).flatMap
          fun pending => (pending.route? words).toList := by
  induction lines generalizing pass with
  | nil =>
      obtain ⟨routes, pending⟩ := pass
      cases pending <;> simp [flush, blocks]
  | cons line lines ih =>
      obtain ⟨routes, pending⟩ := pass
      rw [List.foldl_cons, ih]
      cases opened : registered? line with
      | none =>
          rw [blocks_cons_of_not_registered opened]
          cases pending with
          | none => simp [readLine, register, opened]
          | some pending => simp [readLine, register, opened, Pending.closed_cons opened]
      | some call =>
          obtain ⟨method, path⟩ := call
          rw [blocks_cons_eq_closed opened]
          cases pending with
          | none => simp [readLine, register, opened, flush]
          | some pending =>
              simp [readLine, register, opened, flush, Pending.closed_of_registered opened]

end Pass

/-- **Blocks.** The pass over some lines makes the routes of their blocks. -/
theorem routesOf_eq_blocks (definition : Definition) (lines : List (List Char)) :
    routesOf definition lines =
      (blocks lines).filterMap (Pending.route? (Vocabulary.ofDefinition definition)) := by
  rw [routesOf, Pass.flush_foldl, List.filterMap_eq_flatMap_toList]
  rfl

/-! ## Lines before and behind a registration -/

theorem labelBeforeNext?_eq :
    labelBeforeNext? lines =
      (lines.takeWhile fun next => (registered? next).isNone).findSome? stubLabel? := by
  induction lines with
  | nil => rfl
  | cons line lines ih =>
      rw [labelBeforeNext?, List.takeWhile_cons]
      cases registered? line with
      | some call => rfl
      | none =>
          simp only [Option.isNone_none, ↓reduceIte, List.findSome?_cons]
          cases stubLabel? line with
          | some label => rfl
          | none => exact ih

theorem blocks_cons_of_registered (registers : registered? line = some (method, path)) :
    blocks (line :: after) =
      ⟨method, path, (blockLines line after).findSome? stubLabel?⟩ :: blocks after := by
  have label : ((stubLabel? line).orElse fun _ => labelBeforeNext? after) =
      (blockLines line after).findSome? stubLabel? := by
    rw [blockLines, List.findSome?_cons, labelBeforeNext?_eq]
    cases stubLabel? line <;> rfl
  rw [blocks, registers]
  simp only [label]

/-- What a block is labelled by does not depend on what follows the next registration. -/
theorem labelBeforeNext?_append (registers : registered? line = some (method, path)) :
    labelBeforeNext? (before ++ line :: after) = labelBeforeNext? before := by
  have closes : (registered? line).isNone = false := by rw [registers]; rfl
  have next : ((line :: after).takeWhile fun next => (registered? next).isNone) = [] := by
    rw [List.takeWhile_cons_of_neg (by simp [closes])]
  rw [labelBeforeNext?_eq, labelBeforeNext?_eq, List.takeWhile_append, next, List.append_nil]
  split
  · next whole => rw [(List.takeWhile_prefix _).eq_of_length whole]
  · rfl

/-- The blocks of the lines before a registration are as if nothing followed. -/
theorem blocks_append (registers : registered? line = some (method, path)) :
    blocks (before ++ line :: after) = blocks before ++ blocks (line :: after) := by
  induction before with
  | nil => rfl
  | cons first before ih =>
      rw [List.cons_append]
      cases opened : registered? first with
      | none =>
          rw [blocks_cons_of_not_registered opened, blocks_cons_of_not_registered opened, ih]
      | some call =>
          obtain ⟨firstMethod, firstPath⟩ := call
          have label := @labelBeforeNext?_append line before after method path registers
          rw [blocks, blocks, opened]
          simp only [label, ih, List.cons_append]

theorem routesOf_append (definition : Definition)
    (registers : registered? line = some (method, path)) :
    routesOf definition (before ++ line :: after) =
      routesOf definition before ++ routesOf definition (line :: after) := by
  simp only [routesOf_eq_blocks, blocks_append registers, List.filterMap_append]

/-- A registration gives the route of its block, if there is one, before those that follow. -/
theorem routesOf_cons_of_registered (definition : Definition)
    (registers : registered? line = some (method, path)) :
    routesOf definition (line :: after) =
      (Pending.route? (Vocabulary.ofDefinition definition)
        ⟨method, path, (blockLines line after).findSome? stubLabel?⟩).toList ++
          routesOf definition after := by
  rw [routesOf_eq_blocks, routesOf_eq_blocks, blocks_cons_of_registered registers,
    List.filterMap_cons]
  cases Pending.route? (Vocabulary.ofDefinition definition)
    ⟨method, path, (blockLines line after).findSome? stubLabel?⟩ <;> rfl

/-! ## Endings of lines -/

theorem cutAt?_concat {c d : Char} (different : d ≠ c) (text : List Char) :
    cutAt? c (text ++ [d]) = (cutAt? c text).map fun (before, after) => (before, after ++ [d]) := by
  induction text with
  | nil => simp [cutAt?, different]
  | cons first text ih =>
      rw [List.cons_append, cutAt?, cutAt?]
      split
      · rfl
      · rw [ih, Option.map_map, Option.map_map]
        rfl

theorem quotedText?_concat_return (text : List Char) :
    quotedText? (text ++ ['\r']) = quotedText? text := by
  have begins : (text ++ ['\r']).dropWhile Text.isBlank =
      if text.dropWhile Text.isBlank = [] then [] else text.dropWhile Text.isBlank ++ ['\r'] := by
    rw [List.dropWhile_append]
    simp only [List.isEmpty_iff]
    rfl
  rw [quotedText?, quotedText?, begins]
  cases text.dropWhile Text.isBlank with
  | nil => rfl
  | cons quote body =>
      rw [if_neg (List.cons_ne_nil _ _), List.cons_append]
      simp only
      split
      · next isQuote =>
        have different : '\r' ≠ quote := by
          rintro rfl
          exact absurd isQuote (by decide)
        rw [cutAt?_concat different, Option.map_map]
        rfl
      · rfl

theorem labelled?_concat_return {label : String} (nonempty : label.toList ≠ [])
    (foreign : '\r' ∉ label.toList) (line : List Char) :
    labelled? label (line ++ ['\r']) = labelled? label line := by
  rw [labelled?, labelled?, Text.afterFirst?_concat nonempty foreign, Option.bind_map]
  exact congrArg _ (funext quotedText?_concat_return)

/-- A carriage return at the end of a line is no part of a label. -/
theorem stubLabel?_dropReturn (line : List Char) :
    stubLabel? (Text.dropReturn line) = stubLabel? line := by
  rcases Text.eq_dropReturn_or line with same | ended
  · rw [← same]
  · conv_rhs => rw [ended]
    rw [stubLabel?, stubLabel?, labelled?_concat_return (by decide) (by decide),
      labelled?_concat_return (by decide) (by decide)]

theorem registered?_dropReturn (line : List Char) :
    registered? (Text.dropReturn line) = registered? line := by
  rcases Text.eq_dropReturn_or line with same | ended
  · rw [← same]
  · conv_rhs => rw [ended]
    rw [registered?, registered?, Text.afterFirst?_concat (by decide) (by decide)]
    simp only [Option.bind_eq_bind, Option.bind_map]
    congr
    funext call
    rw [Function.comp_apply, cutAt?_concat (show '\r' ≠ '(' by decide)]
    cases cutAt? '(' call with
    | none => rfl
    | some parts => simp only [Option.map_some, Option.bind_some, quotedText?_concat_return]

theorem labelBeforeNext?_endedLines (pieces : List (List Char)) :
    labelBeforeNext? (Text.endedLines pieces) = labelBeforeNext? pieces := by
  fun_induction Text.endedLines with
  | case1 => rfl
  | case2 => rfl
  | case3 last filled => rfl
  | case4 line next rest ih =>
      rw [labelBeforeNext?, labelBeforeNext?, registered?_dropReturn, stubLabel?_dropReturn, ih]

/-- The endings of lines do not show in the blocks of a source. -/
theorem blocks_endedLines (pieces : List (List Char)) :
    blocks (Text.endedLines pieces) = blocks pieces := by
  fun_induction Text.endedLines with
  | case1 => rfl
  | case2 => rfl
  | case3 last filled => rfl
  | case4 line next rest ih =>
      rw [blocks, blocks, registered?_dropReturn, stubLabel?_dropReturn,
        labelBeforeNext?_endedLines, ih]

theorem extract_eq (source : String) (definition : Definition) :
    extract source definition = routesOf definition (Text.splitOn '\n' source.toList) := by
  rw [extract, routesOf_eq_blocks, routesOf_eq_blocks, Text.lines, blocks_endedLines]

end Registration

end ModuleRoutes
