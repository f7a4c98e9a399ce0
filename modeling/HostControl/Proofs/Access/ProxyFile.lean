/-
Module: HostControl.Proofs.Access.ProxyFile
Purpose: The proxy file as a whole is read back as it was written: under the name of its middleware it
  holds the ranges that were written, in their order, and under any other name it holds none.
Main exports: ProxyFile.middlewares_render, ProxyFile.ranges?_render
-/
import HostControl.Proofs.Access.ProxyTokens
import HostControl.Proofs.Text.Numerals

namespace HostControl.Access

open Text

/-! ### The lines at the top -/

theorem isText_digitChar {d : Nat} (small : d < 16) : Toml.isText (digitChar d) = true := by
  have each : ∀ d < 16, Toml.isText (digitChar d) = true := by decide
  exact each d small

theorem isText_numeral {base : Nat} (low : 2 ≤ base) (high : base ≤ 16) (n : Nat) :
    ∀ c ∈ numeral base n, Toml.isText c = true := by
  intro c member
  obtain ⟨d, small, rfl⟩ := exists_digit_of_mem_numeral low n c member
  exact isText_digitChar (by omega)

theorem isText_padded (width n : Nat) : ∀ c ∈ padded width n, Toml.isText c = true := by
  intro c member
  simp only [padded, List.mem_append, List.mem_replicate] at member
  rcases member with ⟨_, rfl⟩ | digit
  · decide
  · exact isText_numeral (by decide) (by decide) n c digit

/-- A written instant may stand in a comment. -/
theorem isText_render {zone : List Char} (plain : ∀ c ∈ zone, Toml.isText c = true) (t : Instant) :
    ∀ c ∈ Rfc3339.render zone t, Toml.isText c = true := by
  have year : ∀ y, ∀ c ∈ Rfc3339.renderYear y, Toml.isText c = true := by
    intro y c member
    unfold Rfc3339.renderYear at member
    split at member
    · exact isText_padded _ _ c member
    · rcases List.mem_cons.1 member with rfl | digit
      · split <;> decide
      · exact isText_padded _ _ c digit
  have fraction : ∀ n, ∀ c ∈ Rfc3339.renderFraction n, Toml.isText c = true := by
    intro n c member
    unfold Rfc3339.renderFraction at member
    split at member
    · simp at member
    repeat' split at member
    all_goals
      rcases List.mem_cons.1 member with rfl | digit
      · decide
      · exact isText_padded _ _ c digit
  intro c member
  simp only [Rfc3339.render, Rfc3339.renderDate, List.mem_append, List.mem_cons] at member
  have mark : Toml.isText '-' = true ∧ Toml.isText 'T' = true ∧ Toml.isText ':' = true := by decide
  rcases member with
    ((((((y | rfl | d) | rfl | d) | rfl | d) | rfl | d) | rfl | d) | f) | z
  · exact year _ c y
  · exact mark.1
  · exact isText_padded _ _ c d
  · exact mark.1
  · exact isText_padded _ _ c d
  · exact mark.2.1
  · exact isText_padded _ _ c d
  · exact mark.2.2
  · exact isText_padded _ _ c d
  · exact mark.2.2
  · exact isText_padded _ _ c d
  · exact fraction _ c f
  · exact plain c z

/-- A comment and the end of its line are passed over. -/
theorem lineEnd_comment {text : List Char} (plain : ∀ c ∈ text, Toml.isText c = true)
    (rest : List Char) : Toml.lineEnd ('#' :: (text ++ '\n' :: rest)) = some rest := by
  have passed : (text ++ '\n' :: rest).dropWhile Toml.isText = '\n' :: rest := by
    rw [List.dropWhile_append_of_pos plain]
    rfl
  have front : Toml.skipComment (Toml.skipSpace ('#' :: (text ++ '\n' :: rest))) = '\n' :: rest :=
    passed
  simp only [Toml.lineEnd, front]
  rfl

/-- The statements of a text that begins with a comment are those behind it. -/
theorem statementsFrom_comment {text rest : List Char} (plain : ∀ c ∈ text, Toml.isText c = true)
    (more : rest ≠ []) (fuel : Nat) :
    Toml.statementsFrom (fuel + 1) ('#' :: (text ++ '\n' :: rest)) = Toml.statementsFrom fuel rest := by
  rw [Toml.statementsFrom, lineEnd_comment plain]
  cases rest with
  | nil => exact absurd rfl more
  | cons c cs => rfl

/-! ### The two statements -/

theorem keyNames_last {name rest after : List Char} {text : String} (fuel : Nat)
    (solid : Toml.skipSpace name = name) (read : Toml.keyName name = some (text, rest))
    (next : Toml.skipSpace rest = after) (single : ∀ c ∈ after.head?, c ≠ '.') :
    Toml.keyNames (fuel + 1) name = some ([text], after) := by
  rw [Toml.keyNames, solid, read]
  simp only [next]
  split
  · simp at single
  · rfl

theorem keyNames_dot {name rest : List Char} {text : String} (fuel : Nat)
    (solid : Toml.skipSpace name = name) (read : Toml.keyName name = some (text, '.' :: rest)) :
    Toml.keyNames (fuel + 1) name =
      (Toml.keyNames fuel rest).map fun (names, after) => (text :: names, after) := by
  rw [Toml.keyNames, solid, read]
  rfl

/-- The header of the file names the list of ranges of the middleware. -/
theorem key_header (middleware rest : List Char) :
    Toml.key ("http.middlewares.".toList ++ (keyChars middleware ++
      (".ipAllowList".toList ++ ']' :: rest))) =
        some (["http", "middlewares", String.ofList middleware, "ipAllowList"], ']' :: rest) := by
  have last : Toml.keyNames 76 ("ipAllowList".toList ++ ']' :: rest) =
      some (["ipAllowList"], ']' :: rest) :=
    keyNames_last 75 rfl (keyName_bare (by decide) (by decide) (by simp; decide)) rfl (by simp)
  have named : Toml.keyNames 77 (keyChars middleware ++ (".ipAllowList".toList ++ ']' :: rest)) =
      some ([String.ofList middleware, "ipAllowList"], ']' :: rest) := by
    have read := keyName_keyChars middleware ("ipAllowList".toList ++ ']' :: rest)
    have step := keyNames_dot 76 (skipSpace_keyChars middleware _) read
    rw [last] at step
    exact step
  have under : Toml.keyNames 78 ("middlewares".toList ++ '.' :: (keyChars middleware ++
      (".ipAllowList".toList ++ ']' :: rest))) =
        some (["middlewares", String.ofList middleware, "ipAllowList"], ']' :: rest) := by
    have read := @keyName_bare "middlewares".toList ('.' :: (keyChars middleware ++
      (".ipAllowList".toList ++ ']' :: rest))) (by decide) (by decide) (by simp; decide)
    rw [keyNames_dot 77 rfl read, named]
    rfl
  have read := @keyName_bare "http".toList ('.' :: ("middlewares".toList ++ '.' ::
    (keyChars middleware ++ (".ipAllowList".toList ++ ']' :: rest))))
    (by decide) (by decide) (by simp; decide)
  have step := keyNames_dot 78 rfl read
  rw [under] at step
  exact step

/-- A key in single brackets begins a table. -/
theorem statement_table {cs rest : List Char} {path : List String} (single : cs.head? ≠ some '[')
    (read : Toml.key cs = some (path, ']' :: rest)) :
    Toml.statement ('[' :: cs) = some (.table path, rest) := by
  unfold Toml.statement
  split
  · next same =>
      cases same
      exact absurd rfl single
  · next same =>
      cases same
      simp only [read]
  · next bare => exact absurd rfl (bare _)

/-- A key, an equals sign and a value make an assignment. -/
theorem statement_assign {cs rest after : List Char} {path : List String} {v : Toml.Value}
    (bare : cs.head? ≠ some '[') (read : Toml.key cs = some (path, '=' :: rest))
    (found : Toml.value (2 * rest.length + 2) 0 (Toml.skipSpace rest) = some (v, after)) :
    Toml.statement cs = some (.assign path v, after) := by
  unfold Toml.statement
  split
  · exact absurd rfl bare
  · exact absurd rfl bare
  · simp only [read, found, Option.map_some]

theorem statement_header (middleware rest : List Char) :
    Toml.statement ("[http.middlewares.".toList ++ (keyChars middleware ++
      (".ipAllowList]".toList ++ rest))) =
        some (.table ["http", "middlewares", String.ofList middleware, "ipAllowList"], rest) := by
  refine statement_table ?_ (key_header middleware rest)
  intro bracket
  exact absurd (Option.some.inj (bracket : some 'h' = some '[')) (by decide)

theorem length_le_itemChars (ts : List String) : ts.length ≤ (itemChars ts).length + 1 := by
  induction ts with
  | nil => simp
  | cons t ts ih =>
      cases ts with
      | nil => simp
      | cons u us =>
          simp only [itemChars, List.length_append, List.length_cons] at ih ⊢
          omega

/-- The assignment of the file gives the ranges as they were written. -/
theorem statement_ranges (ts : List String) (rest : List Char) :
    Toml.statement ("sourceRange = [".toList ++ (itemChars ts ++ ']' :: rest)) =
      some (.assign ["sourceRange"] (.array (ts.map .string)), rest) := by
  have named : Toml.key ("sourceRange = [".toList ++ (itemChars ts ++ ']' :: rest)) =
      some (["sourceRange"], '=' :: ' ' :: '[' :: (itemChars ts ++ ']' :: rest)) := by
    have read := @keyName_bare "sourceRange".toList
      (" = [".toList ++ (itemChars ts ++ ']' :: rest)) (by decide) (by decide) (by simp; decide)
    exact keyNames_last 78 rfl read rfl (by simp)
  have enough : ts.length < 2 * (' ' :: '[' :: (itemChars ts ++ ']' :: rest)).length + 1 := by
    have written := length_le_itemChars ts
    simp only [List.length_cons, List.length_append]
    omega
  have listed := items_itemChars 1 ts rest enough
  have array : Toml.value (2 * (' ' :: '[' :: (itemChars ts ++ ']' :: rest)).length + 2) 0
      (Toml.skipSpace (' ' :: '[' :: (itemChars ts ++ ']' :: rest))) =
        some (.array (ts.map .string), rest) := by
    have solid : Toml.skipSpace (' ' :: '[' :: (itemChars ts ++ ']' :: rest)) =
        '[' :: (itemChars ts ++ ']' :: rest) := rfl
    rw [solid, Toml.value]
    simp only [Toml.depthLimit, listed]
    rfl
  exact statement_assign (by simp) named array

/-! ### The document -/

/-- The lines of the file below its comments. -/
def tableChars (middleware : List Char) (ts : List String) : List Char :=
  "[http.middlewares.".toList ++ (keyChars middleware ++ (".ipAllowList]".toList ++
    '\n' :: ("sourceRange = [".toList ++ (itemChars ts ++ [']', '\n']))))

/-- A line with a statement gives that statement, and the text behind it the others. -/
theorem statementsFrom_statement {cs rest after : List Char} {s : Toml.Statement} (fuel : Nat)
    (solid : Toml.skipSpace cs = cs) (code : Toml.lineEnd cs = none)
    (read : Toml.statement cs = some (s, rest)) (ended : Toml.lineEnd rest = some after) :
    Toml.statementsFrom (fuel + 1) cs =
      if after = [] then some [s] else (Toml.statementsFrom fuel after).map (s :: ·) := by
  rw [Toml.statementsFrom, code, solid, read]
  simp only [ended]
  cases after with
  | nil => rfl
  | cons c cs => rfl

theorem statementsFrom_tableChars (middleware : List Char) (ts : List String) (fuel : Nat) :
    Toml.statementsFrom (fuel + 2) (tableChars middleware ts) =
      some [.table ["http", "middlewares", String.ofList middleware, "ipAllowList"],
        .assign ["sourceRange"] (.array (ts.map .string))] := by
  have assigned : Toml.statementsFrom (fuel + 1)
      ("sourceRange = [".toList ++ (itemChars ts ++ [']', '\n'])) =
        some [.assign ["sourceRange"] (.array (ts.map .string))] := by
    have line : Toml.lineEnd ['\n'] = some [] := rfl
    rw [statementsFrom_statement fuel rfl rfl (statement_ranges ts ['\n']) line, if_pos rfl]
  have opened := statement_header middleware
    ('\n' :: ("sourceRange = [".toList ++ (itemChars ts ++ [']', '\n'])))
  have line : Toml.lineEnd ('\n' :: ("sourceRange = [".toList ++ (itemChars ts ++ [']', '\n']))) =
      some ("sourceRange = [".toList ++ (itemChars ts ++ [']', '\n'])) := rfl
  delta tableChars
  rw [statementsFrom_statement (fuel + 1) rfl rfl opened line, if_neg (by simp), assigned]
  rfl

/-- The three comments at the top of the file, the last of which the instant of the write ends. -/
theorem heading_eq (rest : List Char) :
    ProxyFile.heading ++ rest =
      '#' :: (" Reverse proxy dynamic configuration: IP allow list.".toList ++ '\n' ::
        '#' :: (" Managed by harbormaster. Manual edits are overwritten.".toList ++ '\n' ::
          '#' :: (" Last updated: ".toList ++ rest))) := by
  have first : "# Reverse proxy dynamic configuration: IP allow list.\n".toList =
      '#' :: (" Reverse proxy dynamic configuration: IP allow list.".toList ++ ['\n']) := by
    simp only [String.reduceToList, List.cons_append, List.nil_append]
  have second : "# Managed by harbormaster. Manual edits are overwritten.\n".toList =
      '#' :: (" Managed by harbormaster. Manual edits are overwritten.".toList ++ ['\n']) := by
    simp only [String.reduceToList, List.cons_append, List.nil_append]
  have third : "# Last updated: ".toList = '#' :: " Last updated: ".toList := by
    simp only [String.reduceToList]
  -- The equation lemma of a list of characters is dear, so that `delta` opens it here and below.
  delta ProxyFile.heading
  rw [String.toList_append, String.toList_append, first, second, third]
  simp only [List.append_assoc, List.cons_append, List.nil_append]

/-- The file is its three comments, a blank line and the two statements. -/
theorem renderChars_eq (middleware : String) (ts : List String) (t : Instant) :
    ProxyFile.renderChars middleware ts t =
      '#' :: (" Reverse proxy dynamic configuration: IP allow list.".toList ++ '\n' ::
        '#' :: (" Managed by harbormaster. Manual edits are overwritten.".toList ++ '\n' ::
          '#' :: ((" Last updated: ".toList ++
            Rfc3339.render ['+', '0', '0', ':', '0', '0'] t) ++ '\n' ::
              '\n' :: tableChars middleware.toList ts))) := by
  have header : ".ipAllowList]\n".toList = ".ipAllowList]".toList ++ ['\n'] := by
    simp only [String.reduceToList, List.cons_append, List.nil_append]
  delta ProxyFile.renderChars tableChars
  simp only [List.append_assoc, heading_eq, header, Rfc3339.offsetZero, String.toList_ofList,
    List.cons_append, List.nil_append]

/-- Reading the file gives its two statements. -/
theorem statements_renderChars (middleware : String) (ts : List String) (t : Instant) :
    Toml.statements (ProxyFile.renderChars middleware ts t) =
      some [.table ["http", "middlewares", middleware, "ipAllowList"],
        .assign ["sourceRange"] (.array (ts.map .string))] := by
  obtain ⟨fuel, enough⟩ : ∃ fuel, (ProxyFile.renderChars middleware ts t).length + 1 = fuel + 6 := by
    refine ⟨(ProxyFile.renderChars middleware ts t).length - 5, ?_⟩
    rw [renderChars_eq]
    simp only [List.length_cons, List.length_append]
    omega
  have front : Toml.statements (ProxyFile.renderChars middleware ts t) =
      Toml.statementsFrom (fuel + 6) (ProxyFile.renderChars middleware ts t) := by
    rw [← enough, renderChars_eq]
    rfl
  have zone : ∀ c ∈ ['+', '0', '0', ':', '0', '0'], Toml.isText c = true :=
    List.all_eq_true.1 (by decide)
  have label : ∀ c ∈ " Last updated: ".toList, Toml.isText c = true :=
    List.all_eq_true.1 (by decide)
  have dated : ∀ c ∈ " Last updated: ".toList ++ Rfc3339.render ['+', '0', '0', ':', '0', '0'] t,
      Toml.isText c = true := by
    intro c member
    rcases List.mem_append.1 member with front | digit
    · exact label c front
    · exact isText_render zone t c digit
  have blank : Toml.statementsFrom (fuel + 3) ('\n' :: tableChars middleware.toList ts) =
      Toml.statementsFrom (fuel + 2) (tableChars middleware.toList ts) := rfl
  rw [front, renderChars_eq, statementsFrom_comment (List.all_eq_true.1 (by decide)) (by simp),
    statementsFrom_comment (List.all_eq_true.1 (by decide)) (by simp),
    statementsFrom_comment dated (by simp), blank, statementsFrom_tableChars, String.ofList_toList]

/-- Those two statements make a document with one table. -/
theorem build_statements (middleware : String) (v : Toml.Value) :
    Toml.build [.table ["http", "middlewares", middleware, "ipAllowList"],
      .assign ["sourceRange"] v] =
      some [("http", .table [("middlewares", .table [(middleware, .table
        [("ipAllowList", .table [("sourceRange", v)])])])])] := by
  simp [Toml.build, Toml.Draft.steps, Toml.Draft.step, Toml.Draft.close, Toml.openTable,
    Toml.splitLast, Toml.Nodes.within, Toml.Nodes.find?, Toml.Nodes.lookup, Toml.Nodes.assign,
    Toml.Nodes.set, Toml.finishFields, Toml.Node.finish]

theorem mapM_string (ts : List String) :
    ts.mapM (Config.string? ∘ Toml.Value.string) = some ts := by
  induction ts with
  | nil => rfl
  | cons t ts ih => simp [Config.string?, ih]

/-- The one middleware of that document has the ranges as its list. -/
theorem middlewaresOf?_document (middleware : String) (ts : List String) :
    ProxyFile.middlewaresOf? [("http", .table [("middlewares", .table [(middleware, .table
      [("ipAllowList", .table [("sourceRange", .array (ts.map .string))])])])])] =
      some [(middleware, some ts)] := by
  simp [ProxyFile.middlewaresOf?, ProxyFile.documentFields, ProxyFile.httpFields,
    ProxyFile.middlewareFields, ProxyFile.allowListFields, ProxyFile.middlewares?,
    ProxyFile.strings?, Config.Field.nested, Config.Field.of, Config.Section.ofTable,
    Config.Section.read?, Toml.Table.find?, mapM_string]

/-- What is written for a middleware is read as a document with that middleware alone. -/
theorem ProxyFile.middlewares_render (middleware : String) (ts : List String) (t : Instant) :
    (Toml.read? (ProxyFile.render middleware ts t)).bind ProxyFile.middlewaresOf? =
      some [(middleware, some ts)] := by
  have read : Toml.read? (ProxyFile.render middleware ts t) =
      some [("http", .table [("middlewares", .table [(middleware, .table
        [("ipAllowList", .table [("sourceRange", .array (ts.map .string))])])])])] := by
    rw [Toml.read?, Toml.readChars?, ProxyFile.render, String.toList_ofList,
      statements_renderChars]
    exact build_statements middleware _
  rw [read, Option.bind_some, middlewaresOf?_document]

/-- What is written for a middleware is read back for it, in the same order; for every other
middleware nothing is read. -/
theorem ProxyFile.ranges?_render (middleware other : String) (ts : List String) (t : Instant) :
    ProxyFile.ranges? other (ProxyFile.render middleware ts t) =
      some (if other = middleware then ts else []) := by
  rw [ProxyFile.ranges?, ProxyFile.middlewares_render, Option.map_some]
  by_cases same : other = middleware
  · simp [ProxyFile.rangesOf, same]
  · simp [ProxyFile.rangesOf, same, Ne.symm same]

end HostControl.Access
