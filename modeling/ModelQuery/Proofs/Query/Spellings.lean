import ModelQuery.Proofs.Query.Beginning
import ModelQuery.Proofs.Query.Qualified
import ModelQuery.Proofs.Records.Entries
import ModelQuery.Proofs.Schema.Keyed

/-!
# Spellings of a field

A field is written as a text or as a tagged identifier, by its name alone or behind a qualifier
(`spelled`).  What the qualifier is taken for is one model (`target?_eq`), and all that is resolved
depends on that model and the name (`column_spelled`).

A model that is found by its own name is what a text is taken for that comes to this name, in
whatever letters and with whatever blanks and mark.  If the model is canonical, so is its table, and
a name that stands alone.  All these are spellings of the same column
(`spellings_resolve_alike`).
-/

namespace ModelQuery

/-- A model of some name has a table that is called something. -/
theorem Registry.table_ne_of_registered {xs : List Registration} {m : Model}
    (hm : m ∈ (empty.afterAll xs).models) (hname : m.name ≠ "") : m.table ≠ "" := by
  have hkept := firstKept_afterAll xs
  obtain ⟨x, -, -, hmade⟩ := hkept.described m.name m (hkept.find?_name hm)
  rw [(of_modelOf hmade).2.1, orElse]
  split
  · exact hname
  · assumption

/-! ## One spelling -/

/-- The ways to write a field: as a text or tagged, behind a qualifier or not. -/
def spelled (tagged : Bool) (qualifier : Option String) (name : String) : Value :=
  match tagged, qualifier with
  | false, none => .text name
  | false, some q => dotted q name
  | true, none => .identifier (.bare name)
  | true, some q => .identifier (.qualified q name)

namespace Scope

variable {scope : Scope} {m : Model} {f : Field} {qualifier : Option String} {name : String}

/-- However a field is written, it is resolved by its qualifier and its name. -/
theorem column_spelled (hqualifier : ∀ q ∈ qualifier, IsQualifier q) (hname : IsQualifier name)
    (scope : Scope) (qualify tagged : Bool) :
    scope.column (some qualify) (spelled tagged qualifier name) =
      (scope.resolveField qualify qualifier name).toValue := by
  cases tagged with
  | true =>
      cases qualifier with
      | none => rfl
      | some q => rfl
  | false =>
      cases qualifier with
      | none =>
          rw [spelled, column_text, resolveText, Identifier.ofText_bare hname]
          rfl
      | some q =>
          rw [spelled, dotted, column_text, resolveText,
            Identifier.ofText_dotted (hqualifier q rfl) hname.toIsName]
          rfl

/-- The model a qualifier is taken for, if the canonical one is found by its own name. -/
theorem target?_eq {own : Model} (hcanonical : scope.canonical = some own)
    (hown : scope.registry.lookupName? own.name = some own) (qualifier : Option String) :
    scope.target? qualifier =
      match qualifier with
      | none => some own
      | some q => if q = own.table then some own else scope.registry.lookupName? q := by
  unfold target? ownQualifier
  rw [hcanonical]
  cases qualifier with
  | none => exact hown
  | some q =>
      dsimp only
      split
      · exact hown
      · rfl

/-- A qualifier that is not the table of the canonical model is looked up as it is. -/
theorem target?_of_ne_table {q : String} (h : ∀ c ∈ scope.canonical, q ≠ c.table) :
    scope.target? (some q) = scope.registry.lookupName? q := by
  unfold target? ownQualifier
  cases hcanonical : scope.canonical with
  | none => rfl
  | some c =>
      dsimp only
      rw [if_neg (h c hcanonical)]
      rfl

/-- A field of the model that its qualifier is taken for becomes a column of that model's table. -/
theorem resolveField_of_target (htarget : scope.target? qualifier = some m)
    (htable : m.table ≠ "") (hf : m.field? name = some f) (qualify : Bool) :
    scope.resolveField qualify qualifier name =
      if qualify then ⟨m.table ++ "." ++ f.column, false⟩ else f.columnName := by
  have htableOf : scope.tableOf qualifier = some m.table := by rw [tableOf, htarget]
  have hcolumnOf : scope.columnOf qualifier name = f.columnName := by
    rw [columnOf, htarget, Option.bind_some, hf]
  rw [resolveField, htableOf, hcolumnOf]
  cases qualify with
  | true => exact if_pos ⟨rfl, htable⟩
  | false => exact if_neg fun h => Bool.false_ne_true h.1

/-- What is written is resolved to the column of a field, with its table or without. -/
structure Finds (scope : Scope) (m : Model) (f : Field) (v : Value) : Prop where
  qualified : scope.column (some true) v = dotted m.table f.column
  bare : scope.column (some false) v = f.columnName.toValue

/-- Spelled behind a qualifier of its model, or without one, a field is found. -/
theorem finds_of_target (htarget : scope.target? qualifier = some m) (htable : m.table ≠ "")
    (hf : f ∈ m.fields.toList) (hqualifier : ∀ q ∈ qualifier, IsQualifier q)
    (hname : IsQualifier f.name) (tagged : Bool) :
    scope.Finds m f (spelled tagged qualifier f.name) := by
  have hfield : m.field? f.name = some f := FieldTable.get?_of_mem hf
  constructor
  case qualified =>
    rw [column_spelled hqualifier hname, resolveField_of_target htarget htable hfield]
    rfl
  case bare =>
    rw [column_spelled hqualifier hname, resolveField_of_target htarget htable hfield]
    rfl

end Scope

/-! ## All spellings -/

/-- What a model is called by before the name of a field while it is canonical: nothing, whatever
comes to its name, or its table. -/
inductive Model.CalledBy (m : Model) : Option String → Prop where
  | nothing : m.CalledBy none
  | name {q : String} (hwhole : IsQualifier q) (hname : normalizeName q = m.name) :
      m.CalledBy (some q)
  | table : m.CalledBy (some m.table)

namespace Registry

variable {xs : List Registration} {m : Model} {f : Field}

/-- **ALL SPELLINGS OF A FIELD RESOLVE ALIKE**: for a registered model whose name is not empty and
stays when it is brought to a logical name again, a field is resolved to the same column of the same
table however it is written: by its name alone, behind anything that comes to the model's name, or
behind the table, while the model is canonical; and behind anything that comes to its name in any
other query, unless it is the table of the canonical model there. -/
theorem spellings_resolve_alike (hm : m ∈ (empty.afterAll xs).models) (hnamed : m.name ≠ "")
    (hfixed : normalizeName m.name = m.name) (htable : IsQualifier m.table)
    (hf : f ∈ m.fields.toList) (hname : IsQualifier f.name) (tagged : Bool) :
    (∀ qualifier, m.CalledBy qualifier →
      Scope.Finds ⟨empty.afterAll xs, some m⟩ m f (spelled tagged qualifier f.name)) ∧
    ∀ canonical q, IsQualifier q → normalizeName q = m.name → (∀ c ∈ canonical, q ≠ c.table) →
      Scope.Finds ⟨empty.afterAll xs, canonical⟩ m f (spelled tagged (some q) f.name) := by
  have hkeyed := keyed_empty.afterAll xs
  have htabled := table_ne_of_registered hm hnamed
  have hown := hkeyed.lookupName?_of_normalized hm hnamed hfixed
  constructor
  · intro qualifier hcalled
    have htarget := @Scope.target?_eq ⟨empty.afterAll xs, some m⟩ m rfl hown qualifier
    cases hcalled with
    | nothing => exact Scope.finds_of_target htarget htabled hf nofun hname tagged
    | name hwhole hq =>
        dsimp only at htarget
        rw [hkeyed.lookupName?_of_normalized hm hnamed hq, ite_self] at htarget
        exact Scope.finds_of_target htarget htabled hf (fun _ h => Option.some.inj h ▸ hwhole)
          hname tagged
    | table =>
        dsimp only at htarget
        rw [if_pos rfl] at htarget
        exact Scope.finds_of_target htarget htabled hf (fun _ h => Option.some.inj h ▸ htable)
          hname tagged
  · intro canonical q hwhole hq hcanonical
    have htarget := @Scope.target?_of_ne_table ⟨empty.afterAll xs, canonical⟩ q hcanonical
    rw [hkeyed.lookupName?_of_normalized hm hnamed hq] at htarget
    exact Scope.finds_of_target htarget htabled hf (fun _ h => Option.some.inj h ▸ hwhole)
      hname tagged

/-- A post's title, behind a name in other letters with blanks and a mark, is the same column as
behind its table, and as in a query about something else. -/
theorem title_spelled_otherwise :
    let title := Field.plain "title" "headline" true ""
    let post : Registration := { model := .text "Post", table := "posts", fields := [title] }
    let registered := empty.afterAll [post]
    ∃ m ∈ registered.models,
      Scope.column ⟨registered, some m⟩ (some true) (.text " MODEL_Post .title") =
        .text "posts.headline" ∧
      Scope.column ⟨registered, some m⟩ (some false) (.identifier (.qualified "posts" "title")) =
        .text "headline" ∧
      Scope.column ⟨registered, none⟩ (some true) (.text "POST.title") = .text "posts.headline" := by
  intro title post registered
  have hpost : (registered.lookupName? "post").map (fun m => (m.name, m.table, m.fields.toList)) =
      some ("post", "posts", [title.bind "post"]) := by decide +kernel
  obtain ⟨m, hfind, heq⟩ := Option.map_eq_some_iff.mp hpost
  obtain ⟨hname, htable, hfields⟩ : m.name = "post" ∧ m.table = "posts" ∧
      m.fields.toList = [title.bind "post"] := by
    simpa only [Prod.mk.injEq] using heq
  have hm := mem_of_lookupName? hfind
  have hspelled (tagged : Bool) := spellings_resolve_alike (f := title.bind "post") hm
    (by rw [hname]; decide) (by rw [hname]; decide +kernel) (by rw [htable]; decide)
    (by rw [hfields]; exact List.mem_cons_self) (show IsQualifier "title" by decide) tagged
  have hposts : m.CalledBy (some "posts") := htable ▸ .table
  have hpost : m.CalledBy (some " MODEL_Post ") := .name (by decide) (by rw [hname]; decide +kernel)
  have hcolumn : dotted m.table (title.bind "post").column = .text "posts.headline" := by
    rw [htable]
    rfl
  refine ⟨m, hm, ?_, ((hspelled true).1 _ hposts).bare, ?_⟩
  · exact ((hspelled false).1 _ hpost).qualified.trans hcolumn
  · exact ((hspelled false).2 none "POST" (by decide) (by rw [hname]; decide +kernel)
      nofun).qualified.trans hcolumn

end Registry

end ModelQuery
