import Inim.Catalog.Runs
import Inim.Lib.FileTree
import Inim.Lib.Guards
/-!
# Where an artifact is found (`catalog/artifact_path.rs:43-135`, `catalog/import.rs:78-115`, `:324-417`)

| here | there |
| --- | --- |
| `isSafeRelativePath`, `accepted`, `resolveArtifact` | `artifact_path.rs:43-135` |
| `slugs`                         | the listing of `case-studies`, `artifact_path.rs:90-96`, `import.rs:80-87` |
| `searchRoots`                   | the candidates of `resolve_artifact`, without the artifact's path |
| `outRoots`, `chooseOutDir`      | `import_repository_scoped` (`import.rs:78-115`) |
| `stripPrefix`, `artifactRows`   | `Path::strip_prefix`, and the artifacts of `import_one` (`import.rs:324-417`) |

Paths are absolute, and given by their parts; a separator too many is an empty part. File names are
UTF-8.

**Bug**: "a listed artifact, its existence check, and its access can never disagree about validity or
the root", but the importer takes the first output root whose event directory has a report, and the
resolver, file by file, the first root that has the file. A stub in one root is so taken for the
artifact of a run in another (`not_artifactsRight`). `artifactsRight_iff` is the exact condition.
-/

namespace Inim

open Lib

/-! ## The resolver -/

/-- A part that `Component::Normal` names, and that Windows does not rewrite. -/
def isSafePart (c : String) : Bool :=
  decide (Stays c) || c != ".." && c.toList.getLast? != some '.' && c.toList.getLast? != some ' '

/-- A letter and a colon. -/
def hasDrive (rel : String) : Bool :=
  match rel.toList with
  | d :: ':' :: _ => d.isAlpha
  | _ => false

/-- The check for a leading pair of backslashes comes after the one for any backslash. -/
def isSafeRelativePath (rel : String) : Bool :=
  !rel.isEmpty && !rel.toList.contains '\\' && !isAbsolute rel && !hasDrive rel &&
    (partsOf rel).all isSafePart

/-- `Path::join`. -/
def joinPath (base : List String) (rel : String) : List String :=
  if isAbsolute rel then partsOf rel else base ++ partsOf rel

section Resolver
variable (t : FileTree) (root : List String)

def caseStudies : List String := joinPath root "case-studies"

def slugs : List String :=
  sortBy compare ((((t.readDir (caseStudies root)).getD []).map (·.text)).filter fun slug =>
    t.isDir (joinPath (caseStudies root) slug))

/-- Where `resolve_artifact` looks for a path, in this order. -/
def searchRoots : List (List String) :=
  root :: joinPath root "out" :: (slugs t root).flatMap fun slug =>
    let dir := joinPath (caseStudies root) slug
    [joinPath dir "out", joinPath (joinPath dir "pilot") "out"]

/-- A file whose canonical path is under the canonical root, if that is known. -/
def accepted (candidate : List String) : Bool :=
  t.isFile candidate && match t.canonicalize root with
    | some rootCanon => ((t.canonicalize candidate).map fun c => rootCanon.isPrefixOf c).getD false
    | none => true

def resolveArtifact (rel : String) : Option (List String) :=
  if isSafeRelativePath rel then
    ((searchRoots t root).map fun r => joinPath r rel).find? (accepted t root)
  else none

end Resolver

/-! ## The importer -/

section Importer
variable (env : RunEnv) (t : FileTree) (root : List String) (eventId : String)

def outRoots : List (List String) :=
  joinPath root "out" :: (slugs t root).map fun slug => joinPath (joinPath (caseStudies root) slug) "out"

def chooseOutDir : List String :=
  (((outRoots t root).find? fun r => t.isFile (joinPath (joinPath r eventId) "report.json")).or
    ((outRoots t root).find? fun r => t.isDir (joinPath r eventId))).getD (joinPath root "out")

/-- `Path::strip_prefix`, of the prefix by its names; what is left does not begin with parts that stay. -/
def stripPrefix : List String → List String → Option (List String)
  | [], path => some (path.dropWhile fun c => decide (Stays c))
  | _ :: _, [] => none
  | b :: base, c :: path =>
    if Stays c then stripPrefix (b :: base) path
    else if c = b then stripPrefix base path
    else none

/-- The row of a file in the event's directory. -/
def artifactOf (outDir : List String) (schema : UInt32) (runId : Nat) (name : FileName) :
    Except String AnalysisArtifact :=
  let path := joinPath outDir eventId ++ [name.text]
  match t.read path, stripPrefix (names outDir) path with
  | none, _ => throw "cannot read artifact"
  | some _, none => throw "artifact outside out/"
  | some bytes, some rel =>
    return artifactRow env "" "2026-07-31T00:00:00Z" schema runId ⟨"/".intercalate rel, bytes⟩

/-- The rows that an import makes of the files of an event, for a run that is new. -/
def artifactRows (runId : Nat) : Except String (List AnalysisArtifact) := do
  let outDir := chooseOutDir t root eventId
  let some report := t.read (joinPath (joinPath outDir eventId) "report.json")
    | return []
  let report ← readJson env ⟨"report.json", report⟩ "cannot read report"
    ("invalid report.json for " ++ eventId)
  let schema := reportSchema report
  if ¬(2 ≤ schema ∧ schema ≤ AnalysisRun.reportVersion) then
    throw ("import rejected for " ++ eventId ++ ": report schema v" ++ toString schema ++
      " is not a supported historical schema (v2..=v" ++ toString AnalysisRun.reportVersion ++ ")")
  let files := ((t.readDir (joinPath outDir eventId)).getD []).filter fun name =>
    t.isFile (joinPath outDir eventId ++ [name.text])
  (sortBy (compareOn FileName.text) files).mapM (artifactOf env t eventId outDir schema runId)

end Importer

/-! ## What is said of a run's artifacts -/

/-- Both paths lead to the same place. -/
def SameTarget (t : FileTree) (p q : List String) : Prop :=
  ∃ c, t.canonicalize p = some c ∧ t.canonicalize q = some c

/-- What is said of the artifacts that are imported from the tree `t₀` and looked up in `t`. -/
structure ArtifactsRight (env : RunEnv) (t₀ t : FileTree) (root : List String) (eventId : String) :
    Prop where
  inside : ∀ rel path, resolveArtifact t root rel = some path →
    ∃ r c, t.canonicalize root = some r ∧ t.canonicalize path = some c ∧ r <+: c
  own : ∀ runId rows, artifactRows env t₀ root eventId runId = .ok rows → ∀ a ∈ rows, ∀ path,
    resolveArtifact t root a.relativePath = some path →
      SameTarget t path (joinPath (chooseOutDir t₀ root eventId) a.relativePath)
  content : ∀ runId rows, artifactRows env t₀ root eventId runId = .ok rows →
    (∀ a ∈ rows, t.read (joinPath (chooseOutDir t₀ root eventId) a.relativePath) =
      t₀.read (joinPath (chooseOutDir t₀ root eventId) a.relativePath)) →
    ∀ a ∈ rows, ∀ path, resolveArtifact t root a.relativePath = some path →
      ∃ bytes, t.read path = some bytes ∧ env.sha256Bytes bytes = a.sha256
  oneRoot : ∀ runId rows, artifactRows env t₀ root eventId runId = .ok rows →
    ∃ out ∈ outRoots t₀ root, ∀ a ∈ rows, ∀ path, resolveArtifact t root a.relativePath = some path →
      SameTarget t path (joinPath out a.relativePath)

/-- Of the roots that are searched, one that has another file under the path than `outDir` has comes
after one that has the same. -/
def Unshadowed (t : FileTree) (root outDir : List String) (rel : String) : Prop :=
  ∀ before r after, searchRoots t root = before ++ r :: after →
    accepted t root (joinPath r rel) = true →
    SameTarget t (joinPath r rel) (joinPath outDir rel) ∨
      ∃ r' ∈ before, accepted t root (joinPath r' rel) = true ∧
        SameTarget t (joinPath r' rel) (joinPath outDir rel)

def RowsUnshadowed (env : RunEnv) (t₀ t : FileTree) (root : List String) (eventId : String) : Prop :=
  ∀ runId rows, artifactRows env t₀ root eventId runId = .ok rows → ∀ a ∈ rows,
    isSafeRelativePath a.relativePath = true →
    Unshadowed t root (chooseOutDir t₀ root eventId) a.relativePath

/-! ## What is found -/

section Found
variable {t : FileTree} {root path : List String} {rel : String}

theorem resolveArtifact_eq_some : resolveArtifact t root rel = some path ↔
    isSafeRelativePath rel = true ∧ ∃ before r after, searchRoots t root = before ++ r :: after ∧
      path = joinPath r rel ∧ accepted t root (joinPath r rel) = true ∧
      ∀ r' ∈ before, accepted t root (joinPath r' rel) = false := by
  unfold resolveArtifact
  split
  · next hsafe =>
    rw [List.find?_map, Option.map_eq_some_iff]
    simp only [List.find?_eq_some_iff_append, Function.comp_apply, Bool.not_eq_true']
    constructor
    · rintro ⟨r, ⟨hr, before, after, hroots, hbefore⟩, rfl⟩
      exact ⟨hsafe, before, r, after, hroots, rfl, hr, hbefore⟩
    · rintro ⟨-, before, r, after, hroots, rfl, hr, hbefore⟩
      exact ⟨r, ⟨hr, before, after, hroots, hbefore⟩, rfl⟩
  · next hsafe => simp [hsafe]

theorem not_isAbsolute_of_safe (h : isSafeRelativePath rel = true) : isAbsolute rel = false := by
  simp only [isSafeRelativePath, Bool.and_eq_true, Bool.not_eq_true'] at h
  exact h.1.1.2

theorem joinPath_relative {base : List String} (h : isAbsolute rel = false) :
    joinPath base rel = base ++ partsOf rel :=
  if_neg (by simp [h])

theorem isAbsolute_slug {slug : String} (h : slug ∈ slugs t root) : isAbsolute slug = false := by
  obtain ⟨hslug, -⟩ := List.mem_filter.1 (mem_sortBy.1 h)
  obtain ⟨name, -, rfl⟩ := List.mem_map.1 hslug
  exact isAbsolute_of_plain name.plain

/-- Every place that is searched is below the root. -/
theorem below_root {r : List String} (h : r ∈ searchRoots t root) : ∃ q, r = root ++ q := by
  have hout : isAbsolute "out" = false := by decide
  have hpilot : isAbsolute "pilot" = false := by decide
  have hcases : isAbsolute "case-studies" = false := by decide
  rcases List.mem_cons.1 h with rfl | h
  · exact ⟨[], (List.append_nil _).symm⟩
  rcases List.mem_cons.1 h with rfl | h
  · exact ⟨_, joinPath_relative hout⟩
  · obtain ⟨slug, hslug, hr⟩ := List.mem_flatMap.1 h
    simp only [caseStudies, joinPath_relative hout, joinPath_relative hpilot, joinPath_relative hcases,
      joinPath_relative (isAbsolute_slug hslug), List.append_assoc, List.mem_cons, List.not_mem_nil,
      or_false] at hr
    rcases hr with rfl | rfl
    · exact ⟨_, rfl⟩
    · exact ⟨_, rfl⟩

theorem isFile_of_accepted (h : accepted t root path = true) : t.isFile path = true := by
  rw [accepted, Bool.and_eq_true] at h
  exact h.1

theorem resolveArtifact_inside (h : resolveArtifact t root rel = some path) :
    ∃ r c, t.canonicalize root = some r ∧ t.canonicalize path = some c ∧ r <+: c := by
  obtain ⟨hsafe, before, r, after, hroots, rfl, haccepted, -⟩ := resolveArtifact_eq_some.1 h
  obtain ⟨c, hc⟩ := FileTree.canonicalize_of_isFile (isFile_of_accepted haccepted)
  have hr : r ∈ searchRoots t root := by
    rw [hroots]
    simp
  obtain ⟨q, rfl⟩ := below_root hr
  have hroot := hc
  rw [joinPath_relative (not_isAbsolute_of_safe hsafe), List.append_assoc] at hroot
  obtain ⟨d, hd⟩ := FileTree.exists_canonicalize_of_append hroot
  simp only [accepted, hd, hc, Bool.and_eq_true, Option.map_some, Option.getD_some,
    List.isPrefixOf_iff_prefix] at haccepted
  exact ⟨d, c, hd, hc, haccepted.2⟩

end Found

/-! ## What is imported -/

section Imported
variable {env : RunEnv} {t : FileTree} {root : List String} {eventId : String}

/-- What is left of a path has the names behind those of the prefix. -/
theorem names_of_stripPrefix {base path rel : List String} (h : stripPrefix base path = some rel) :
    names path = base ++ names rel ∧ rel <:+ path := by
  induction path generalizing base with
  | nil =>
    cases base with
    | nil =>
      obtain rfl : [] = rel := by simpa [stripPrefix] using h
      exact ⟨rfl, List.suffix_refl _⟩
    | cons b base => simp [stripPrefix] at h
  | cons c path ih =>
    cases base with
    | nil =>
      obtain rfl : (c :: path).dropWhile (fun c => decide (Stays c)) = rel := by
        simpa only [stripPrefix, Option.some.injEq] using h
      exact ⟨(names_dropWhile _).symm, List.dropWhile_suffix _⟩
    | cons b base =>
      rw [stripPrefix] at h
      split at h
      · next hc =>
        obtain ⟨hnames, hsuffix⟩ := ih h
        refine ⟨?_, hsuffix.trans (List.suffix_cons c path)⟩
        rw [← hnames]
        exact List.filter_cons_of_neg (by simpa using hc)
      · next hc =>
        split at h
        · next heq =>
          obtain ⟨hnames, hsuffix⟩ := ih h
          refine ⟨?_, hsuffix.trans (List.suffix_cons c path)⟩
          rw [List.cons_append, ← hnames, ← heq]
          exact List.filter_cons_of_pos (by simpa using hc)
        · cases h

theorem stripPrefix_stays {base path : List String} {c : String} (hc : Stays c) :
    stripPrefix base (c :: path) = stripPrefix base path := by
  cases base with
  | nil =>
    rw [stripPrefix, stripPrefix, List.dropWhile_cons_of_pos (by simpa using hc)]
  | cons b base => rw [stripPrefix, if_pos hc]

/-- A prefix is stripped from what is joined to it. -/
theorem stripPrefix_append (base path : List String) :
    stripPrefix (names base) (base ++ path) = some (path.dropWhile fun c => decide (Stays c)) := by
  induction base with
  | nil => simp only [names, List.filter_nil, List.nil_append, stripPrefix]
  | cons b base ih =>
    by_cases hb : Stays b
    · have hnames : names (b :: base) = names base := List.filter_cons_of_neg (by simpa using hb)
      rw [hnames, List.cons_append, stripPrefix_stays hb, ih]
    · have hnames : names (b :: base) = b :: names base := List.filter_cons_of_pos (by simpa using hb)
      rw [hnames, List.cons_append, stripPrefix, if_neg hb, if_pos rfl, ih]

/-- The path of a row has the parts of the event's id and of the file's name. -/
theorem plain_of_stripPrefix {outDir rel : List String} {name : FileName}
    (h : stripPrefix (names outDir) (joinPath outDir eventId ++ [name.text]) = some rel) :
    ∀ c ∈ rel, '/' ∉ c.toList := by
  have hparts : rel <:+ partsOf eventId ++ [name.text] := by
    unfold joinPath at h
    split at h
    · exact (names_of_stripPrefix h).2
    · rw [List.append_assoc, stripPrefix_append, Option.some.injEq] at h
      rw [← h]
      exact List.dropWhile_suffix _
  intro c hc
  rcases List.mem_append.1 (hparts.subset hc) with hc | hc
  · exact plain_partsOf hc
  · obtain rfl := List.mem_singleton.1 hc
    exact name.plain

/-- Under the path of a row the directory of its run holds the file that was hashed. -/
theorem read_of_artifactOf {outDir : List String} {schema : UInt32} {runId : Nat} {name : FileName}
    {a : AnalysisArtifact} (h : artifactOf env t eventId outDir schema runId name = .ok a)
    (hsafe : isSafeRelativePath a.relativePath = true) :
    ∃ bytes, t.read (joinPath outDir a.relativePath) = some bytes ∧ env.sha256Bytes bytes = a.sha256 := by
  unfold artifactOf at h
  dsimp only at h
  split at h
  · cases h
  · cases h
  · next bytes rel hread hrel =>
    obtain rfl := Except.ok.inj h
    have habs := not_isAbsolute_of_safe hsafe
    obtain ⟨hnames, u, hu⟩ := names_of_stripPrefix hrel
    have hpath : (artifactRow env "" "2026-07-31T00:00:00Z" schema runId
        ⟨"/".intercalate rel, bytes⟩).relativePath = "/".intercalate rel := String.empty_append
    rw [hpath] at hsafe habs ⊢
    have hne : rel ≠ [] := by
      rintro rfl
      simp [isSafeRelativePath] at hsafe
    have hends : EndsWithName (joinPath outDir eventId ++ [name.text]) := endsWithName_concat _ name
    have hends' : EndsWithName (outDir ++ rel) := by
      rw [← hu] at hends
      exact hends.append hne
    refine ⟨bytes, ?_, rfl⟩
    rw [joinPath_relative habs, partsOf_intercalate hne (plain_of_stripPrefix hrel), ← hread]
    apply FileTree.read_congr
    have hleft := FileTree.canonicalize_names (t := t) (p := []) hends'
    have hright := FileTree.canonicalize_names (t := t) (p := []) hends
    rw [List.nil_append] at hleft hright
    rw [hleft, hright, hnames, names, names, names, List.filter_append]

theorem read_of_artifactRows {runId : Nat} {rows : List AnalysisArtifact} {a : AnalysisArtifact}
    (h : artifactRows env t root eventId runId = .ok rows) (ha : a ∈ rows)
    (hsafe : isSafeRelativePath a.relativePath = true) :
    ∃ bytes, t.read (joinPath (chooseOutDir t root eventId) a.relativePath) = some bytes ∧
      env.sha256Bytes bytes = a.sha256 := by
  unfold artifactRows at h
  dsimp only at h
  split at h
  · obtain ⟨report, -, h⟩ := bind_ok h
    obtain ⟨-, h⟩ := guard_ok h
    obtain ⟨name, -, hname⟩ := exists_of_forall₂ (mapM_ok_forall₂ h) ha
    exact read_of_artifactOf hname hsafe
  · cases h
    cases ha

end Imported

section Right
variable {env : RunEnv} {t₀ t : FileTree} {root : List String} {eventId : String}

theorem chooseOutDir_mem : chooseOutDir t root eventId ∈ outRoots t root := by
  have hfind : ∀ p : List String → Bool, ∀ r, (outRoots t root).find? p = some r → r ∈ outRoots t root :=
    fun p r h => List.mem_of_find?_eq_some h
  unfold chooseOutDir
  cases hreport : (outRoots t root).find? fun r =>
      t.isFile (joinPath (joinPath r eventId) "report.json") with
  | some r => exact hfind _ r hreport
  | none =>
    rw [Option.none_or]
    cases hdir : (outRoots t root).find? fun r => t.isDir (joinPath r eventId) with
    | some r => exact hfind _ r hdir
    | none => exact List.mem_cons_self

/-- Of a path the run's own file is found, if any, exactly if no other file shadows it. -/
theorem unshadowed_iff {outDir : List String} {rel : String} (hsafe : isSafeRelativePath rel = true) :
    Unshadowed t root outDir rel ↔ ∀ path, resolveArtifact t root rel = some path →
      SameTarget t path (joinPath outDir rel) := by
  constructor
  · intro h path hpath
    obtain ⟨-, before, r, after, hroots, rfl, haccepted, hbefore⟩ := resolveArtifact_eq_some.1 hpath
    rcases h before r after hroots haccepted with hsame | ⟨r', hr', haccepted', -⟩
    · exact hsame
    · rw [hbefore r' hr'] at haccepted'
      cases haccepted'
  · intro h before r after hroots haccepted
    cases hfind : before.find? fun r' => accepted t root (joinPath r' rel) with
    | none =>
      have hbefore : ∀ r' ∈ before, accepted t root (joinPath r' rel) = false := by
        simpa using List.find?_eq_none.1 hfind
      exact .inl (h _ (resolveArtifact_eq_some.2
        ⟨hsafe, before, r, after, hroots, rfl, haccepted, hbefore⟩))
    | some r' =>
      -- a root before is the one where the path is found
      obtain ⟨haccepted', left, right, rfl, hleft⟩ := List.find?_eq_some_iff_append.1 hfind
      rw [List.append_assoc, List.cons_append] at hroots
      refine .inr ⟨r', by simp, haccepted', h _ (resolveArtifact_eq_some.2
        ⟨hsafe, left, r', _, hroots, rfl, haccepted', by simpa using hleft⟩)⟩

/-- **Which file an artifact leads to.** Whatever is found is inside the root. It is the run's own file,
with the hash of the row as long as that file is unchanged, and all artifacts of the run are found in one
output root, exactly if of every row no other file stands, in a root that is searched, before the run's
own. -/
theorem artifactsRight_iff (env : RunEnv) (t₀ t : FileTree) (root : List String) (eventId : String) :
    ArtifactsRight env t₀ t root eventId ↔ RowsUnshadowed env t₀ t root eventId := by
  constructor
  · intro h runId rows hrows a ha hsafe
    exact (unshadowed_iff hsafe).2 (h.own runId rows hrows a ha)
  · intro h
    have hown : ∀ runId rows, artifactRows env t₀ root eventId runId = .ok rows → ∀ a ∈ rows, ∀ path,
        resolveArtifact t root a.relativePath = some path →
        SameTarget t path (joinPath (chooseOutDir t₀ root eventId) a.relativePath) := by
      intro runId rows hrows a ha path hpath
      have hsafe := (resolveArtifact_eq_some.1 hpath).1
      exact (unshadowed_iff hsafe).1 (h runId rows hrows a ha hsafe) path hpath
    refine ⟨fun _ _ => resolveArtifact_inside, hown, ?_, fun runId rows hrows => ?_⟩
    · intro runId rows hrows hsame a ha path hpath
      have hsafe := (resolveArtifact_eq_some.1 hpath).1
      obtain ⟨c, hc, hc'⟩ := hown runId rows hrows a ha path hpath
      obtain ⟨bytes, hbytes, hsha⟩ := read_of_artifactRows hrows ha hsafe
      refine ⟨bytes, ?_, hsha⟩
      rw [FileTree.read_congr (hc.trans hc'.symm), hsame a ha, hbytes]
    · exact ⟨_, chooseOutDir_mem, hown runId rows hrows⟩

end Right

/-- For an event id that is a plain name the row is the one that `importRun` stores. -/
theorem artifactOf_plain (env : RunEnv) (t : FileTree) (event name : FileName) (outDir : List String)
    (schema : UInt32) (runId : Nat) {bytes : List UInt8}
    (hread : t.read (joinPath outDir event.text ++ [name.text]) = some bytes) :
    artifactOf env t event.text outDir schema runId name =
      .ok (artifactRow env (event.text ++ "/") "2026-07-31T00:00:00Z" schema runId
        ⟨name.text, bytes⟩) := by
  have hparts : partsOf event.text = [event.text] := by
    have h : partsOf ("/".intercalate [event.text]) = [event.text] :=
      partsOf_intercalate (by simp) (by simpa using event.plain)
    simpa using h
  have hstays : ¬ Stays event.text := by
    rintro (h | h)
    · exact event.proper.1 h
    · exact event.proper.2.1 h
  have hrel : stripPrefix (names outDir) (joinPath outDir event.text ++ [name.text]) =
      some [event.text, name.text] := by
    rw [joinPath_relative (isAbsolute_of_plain event.plain), hparts, List.append_assoc,
      stripPrefix_append, List.cons_append, List.nil_append,
      List.dropWhile_cons_of_neg (by simpa using hstays)]
  have hjoin : "" ++ "/".intercalate [event.text, name.text] = event.text ++ "/" ++ name.text := by
    apply String.toList_inj.1
    simp
  simp only [artifactOf, hread, hrel, artifactRow, hjoin]
  rfl

/-! ## Two trees with one event -/

namespace TwoTrees

def runEnv : RunEnv where
  readToString _ := .ok ""
  parseJson _ := .ok (.obj [("schema_version", .int 3)])
  sha256Bytes bytes := toString bytes

def event : FileName := ⟨"E", by decide, by decide⟩

def limitations : FileName := ⟨"limitations.json", by decide, by decide⟩

def caseStudy : Node :=
  .dir [(event, .dir [(⟨"report.json", by decide, by decide⟩, .file [2]), (limitations, .file [3])])]

/-- A stub of the event under `out`, and its run under a case study. -/
def tree : FileTree where
  root := .dir [(⟨"out", by decide, by decide⟩, .dir [(event, .dir [(limitations, .file [1])])]),
    (⟨"case-studies", by decide, by decide⟩, .dir [(⟨"a", by decide, by decide⟩,
      .dir [(⟨"out", by decide, by decide⟩, caseStudy)])])]
  maxLinks := 40

end TwoTrees

open TwoTrees in
/-- The run of the case study is imported, and its limitations are looked up in the stub. -/
theorem not_artifactsRight : ¬ ∀ env t₀ t root eventId, ArtifactsRight env t₀ t root eventId := by
  intro h
  have hright := h runEnv tree tree [] "E"
  have hrows : (artifactRows runEnv tree [] "E" 0).toOption.map (·.map (·.relativePath)) =
      some ["E/limitations.json", "E/report.json"] := by decide +kernel
  cases hok : artifactRows runEnv tree [] "E" 0 with
  | error e => simp [hok, Except.toOption] at hrows
  | ok rows =>
    rw [hok] at hrows
    have hpaths : rows.map (·.relativePath) = ["E/limitations.json", "E/report.json"] :=
      Option.some.inj hrows
    obtain ⟨a, ha, hrel⟩ : ∃ a ∈ rows, a.relativePath = "E/limitations.json" :=
      List.mem_map.1 (by rw [hpaths]; simp)
    have hfound : resolveArtifact tree [] "E/limitations.json" =
        some ["out", "E", "limitations.json"] := by decide +kernel
    obtain ⟨c, hc, hc'⟩ := hright.own 0 rows hok a ha _ (by rw [hrel]; exact hfound)
    have hdir : chooseOutDir tree [] "E" = ["case-studies", "a", "out"] := by decide +kernel
    have hstub : tree.canonicalize ["out", "E", "limitations.json"] =
        some ["out", "E", "limitations.json"] := by decide +kernel
    have hown : tree.canonicalize ["case-studies", "a", "out", "E", "limitations.json"] =
        some ["case-studies", "a", "out", "E", "limitations.json"] := by decide +kernel
    have hjoin : joinPath ["case-studies", "a", "out"] "E/limitations.json" =
        ["case-studies", "a", "out", "E", "limitations.json"] := by decide +kernel
    rw [hstub] at hc
    rw [hrel, hdir, hjoin, hown] at hc'
    have := hc.trans hc'.symm
    simp at this

end Inim
