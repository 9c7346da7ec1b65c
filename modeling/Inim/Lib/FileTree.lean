import Mathlib.Data.String.Basic
import Mathlib.Tactic.Common
/-!
# A file tree with symbolic links

A path is the list of the parts between its separators, and is followed from the root, part by part: an
empty part and `.` stay where they are, `..` goes up, and a link is replaced by its target, as long as
links may be followed. Where that ends is the canonical path (`canonicalize`), which has no links.

A path that leads somewhere has every beginning lead somewhere (`exists_canonicalize_of_append`), and
what a path leads to does not depend on the parts that stay (`canonicalize_names`).
-/

namespace Inim.Lib

/-- A name in a directory. -/
structure FileName where
  text : String
  plain : '/' ∉ text.toList
  proper : text ≠ "" ∧ text ≠ "." ∧ text ≠ ".."

inductive Node where
  | file (bytes : List UInt8)
  | dir (entries : List (FileName × Node))
  | link (target : String)

/-- What is at a path of names. -/
def Node.get? : Node → List String → Option Node
  | n, [] => some n
  | .dir entries, c :: path =>
    match entries.find? fun e => e.1.text == c with
    | some e => e.2.get? path
    | none => none
  | .file _, _ :: _ => none
  | .link _, _ :: _ => none

/-- The parts of a path's text. -/
def partsOf (text : String) : List String := (text.toList.splitOn '/').map String.ofList

def isAbsolute (text : String) : Bool := text.toList.head? == some '/'

/-- The parts that stay where they are. -/
def Stays (c : String) : Prop := c = "" ∨ c = "."

instance : DecidablePred Stays := fun _ => inferInstanceAs (Decidable (_ ∨ _))

/-! ## The parts of a text -/

theorem not_mem_of_mem_splitOn {α : Type*} [DecidableEq α] {a : α} {xs l : List α}
    (h : l ∈ xs.splitOn a) : a ∉ l := by
  induction xs generalizing l with
  | nil =>
    obtain rfl : l = [] := by simpa using h
    simp
  | cons x xs ih =>
    rw [List.splitOn_cons_eq_if_modifyHead] at h
    split at h
    · rcases List.mem_cons.1 h with rfl | h
      · simp
      · exact ih h
    · next hx =>
      have hxs := List.splitOn_ne_nil a xs
      cases hsplit : xs.splitOn a with
      | nil => exact absurd hsplit hxs
      | cons m ms =>
        rw [hsplit, List.modifyHead_cons] at h
        have ih' := fun l hl => @ih l (by rwa [hsplit])
        rcases List.mem_cons.1 h with rfl | h
        · rintro hmem
          rcases List.mem_cons.1 hmem with rfl | hmem
          · simp at hx
          · exact ih' m List.mem_cons_self hmem
        · exact ih' l (List.mem_cons_of_mem _ h)

theorem plain_partsOf {text c : String} (h : c ∈ partsOf text) : '/' ∉ c.toList := by
  obtain ⟨l, hl, rfl⟩ := List.mem_map.1 h
  rw [String.toList_ofList]
  exact not_mem_of_mem_splitOn hl

/-- Parts that are joined are the parts of the text. -/
theorem partsOf_intercalate {ps : List String} (hne : ps ≠ []) (hplain : ∀ c ∈ ps, '/' ∉ c.toList) :
    partsOf ("/".intercalate ps) = ps := by
  have hsep : "/".toList = ['/'] := rfl
  rw [partsOf, String.toList_intercalate, hsep, List.splitOn_intercalate]
  · simp
  · simpa using hplain
  · simpa using hne

theorem isAbsolute_of_plain {text : String} (h : '/' ∉ text.toList) : isAbsolute text = false := by
  cases hchars : text.toList with
  | nil => simp [isAbsolute, hchars]
  | cons c cs =>
    rw [hchars] at h
    simp only [isAbsolute, hchars, List.head?_cons, beq_eq_false_iff_ne, ne_eq, Option.some.injEq]
    rintro rfl
    exact h List.mem_cons_self

/-! ## Following a path -/

/-- What a part does: it leads to `here`, or through a link to the parts of its target. -/
inductive PathMove where
  | step (here : List String)
  | link (here parts : List String)

def pathMove (root : Node) (here : List String) (c : String) : Option PathMove :=
  match root.get? here with
  | some (.dir _) =>
    if Stays c then some (.step here)
    else if c = ".." then some (.step here.dropLast)
    else match root.get? (here ++ [c]) with
      | none => none
      | some (.link target) => some (.link (if isAbsolute target then [] else here) (partsOf target))
      | some _ => some (.step (here ++ [c]))
  | _ => none

/-- The path is followed from the canonical path `here`; a link goes on with `follow`. -/
def followWith (root : Node) (follow : List String → List String → Option (List String)) :
    List String → List String → Option (List String)
  | here, [] => some here
  | here, c :: path =>
    match pathMove root here c with
    | none => none
    | some (.step here) => followWith root follow here path
    | some (.link here parts) => follow here (parts ++ path)

/-- With `n` links at most. -/
def followPath (root : Node) : Nat → List String → List String → Option (List String)
  | 0 => followWith root fun _ _ => none
  | n + 1 => followWith root (followPath root n)

structure FileTree where
  root : Node
  /-- How many links of one path are followed. -/
  maxLinks : Nat

namespace FileTree

def canonicalize (t : FileTree) (path : List String) : Option (List String) :=
  followPath t.root t.maxLinks [] path

def node? (t : FileTree) (path : List String) : Option Node := (t.canonicalize path).bind t.root.get?

def read (t : FileTree) (path : List String) : Option (List UInt8) :=
  match t.node? path with
  | some (.file bytes) => some bytes
  | _ => none

def isFile (t : FileTree) (path : List String) : Bool := (t.read path).isSome

/-- The names in a directory. -/
def readDir (t : FileTree) (path : List String) : Option (List FileName) :=
  match t.node? path with
  | some (.dir entries) => some (entries.map (·.1))
  | _ => none

def isDir (t : FileTree) (path : List String) : Bool := (t.readDir path).isSome

end FileTree

/-! ## Beginnings of a path -/

section Follow
variable {root : Node} {follow : List String → List String → Option (List String)}

theorem exists_followWith_of_append {here xs ys c : List String}
    (hfollow : ∀ here xs, follow here (xs ++ ys) = some c → ∃ d, follow here xs = some d)
    (h : followWith root follow here (xs ++ ys) = some c) :
    ∃ d, followWith root follow here xs = some d := by
  induction xs generalizing here with
  | nil => exact ⟨here, rfl⟩
  | cons x xs ih =>
    rw [List.cons_append, followWith] at h
    rw [followWith]
    cases hmove : pathMove root here x with
    | none => simp [hmove] at h
    | some m =>
      rw [hmove] at h
      cases m with
      | step here => exact ih h
      | link here parts => exact hfollow here (parts ++ xs) (by rwa [List.append_assoc])

theorem exists_followPath_of_append {n : Nat} {here xs ys c : List String}
    (h : followPath root n here (xs ++ ys) = some c) : ∃ d, followPath root n here xs = some d := by
  induction n generalizing here xs with
  | zero => exact exists_followWith_of_append (fun _ _ h => by cases h) h
  | succ n ih => exact exists_followWith_of_append (fun _ _ h => ih h) h

/-! ## Parts that stay -/

/-- The path does not end with a part that stays. -/
def EndsWithName (path : List String) : Prop := ∀ c ∈ path.getLast?, ¬ Stays c

/-- The parts that do not stay. -/
def names (path : List String) : List String := path.filter (¬ Stays ·)

theorem EndsWithName.tail {c : String} {path : List String} (h : EndsWithName (c :: path)) :
    EndsWithName path := by
  cases path with
  | nil => simp [EndsWithName]
  | cons d path => simpa [EndsWithName, List.getLast?_cons_cons] using h

theorem EndsWithName.append {xs ys path : List String} (h : EndsWithName (xs ++ path))
    (hne : path ≠ []) : EndsWithName (ys ++ path) := by
  unfold EndsWithName at *
  rwa [List.getLast?_append_of_ne_nil _ hne] at h ⊢

theorem endsWithName_concat (path : List String) (name : FileName) :
    EndsWithName (path ++ [name.text]) := by
  intro c hc
  obtain rfl : name.text = c := by simpa using hc
  rintro (h | h)
  · exact name.proper.1 h
  · exact name.proper.2.1 h

theorem names_dropWhile (path : List String) :
    names (path.dropWhile fun c => decide (Stays c)) = names path := by
  induction path with
  | nil => rfl
  | cons c path ih =>
    by_cases hc : Stays c
    · rw [List.dropWhile_cons_of_pos (by simpa using hc), ih]
      exact (List.filter_cons_of_neg (by simpa using hc)).symm
    · rw [List.dropWhile_cons_of_neg (by simpa using hc)]

/-- A part stays in a directory, and no part leads anywhere else. -/
theorem pathMove_stays (root : Node) (here : List String) {c : String} (hc : Stays c) :
    pathMove root here c = some (.step here) ∨ ∀ d, pathMove root here d = none := by
  unfold pathMove
  cases root.get? here with
  | none => exact .inr fun _ => rfl
  | some n =>
    cases n with
    | file bytes => exact .inr fun _ => rfl
    | dir entries => exact .inl (if_pos hc)
    | link target => exact .inr fun _ => rfl

theorem followWith_stays {here path : List String} {c : String} (hc : Stays c) (hne : path ≠ []) :
    followWith root follow here (c :: path) = followWith root follow here path := by
  obtain ⟨d, path, rfl⟩ := List.exists_cons_of_ne_nil hne
  rw [followWith]
  rcases pathMove_stays root here hc with hstay | hnone
  · rw [hstay]
  · rw [hnone c, followWith, hnone d]

theorem followWith_names {here xs ys : List String} (hends : EndsWithName ys)
    (hfollow : ∀ here xs {ys}, EndsWithName ys → follow here (xs ++ ys) = follow here (xs ++ names ys)) :
    followWith root follow here (xs ++ ys) = followWith root follow here (xs ++ names ys) := by
  induction xs generalizing here with
  | nil =>
    induction ys generalizing here with
    | nil => rfl
    | cons y ys ih =>
      by_cases hy : Stays y
      · have hne : ys ≠ [] := by
          rintro rfl
          exact hends y rfl hy
        have hnames : names (y :: ys) = names ys := List.filter_cons_of_neg (by simpa using hy)
        rw [hnames, List.nil_append, followWith_stays hy hne]
        exact ih hends.tail
      · have hnames : names (y :: ys) = y :: names ys := List.filter_cons_of_pos (by simpa using hy)
        rw [hnames, List.nil_append, List.nil_append, followWith, followWith]
        split
        · rfl
        · exact ih hends.tail
        · exact hfollow _ _ hends.tail
  | cons x xs ih =>
    rw [List.cons_append, List.cons_append, followWith, followWith]
    split
    · rfl
    · exact ih
    · rw [← List.append_assoc, ← List.append_assoc]
      exact hfollow _ _ hends

theorem followPath_names {n : Nat} {here xs ys : List String} (hends : EndsWithName ys) :
    followPath root n here (xs ++ ys) = followPath root n here (xs ++ names ys) := by
  induction n generalizing here xs ys with
  | zero => exact followWith_names hends fun _ _ _ _ => rfl
  | succ n ih => exact followWith_names hends fun _ _ _ h => ih h

end Follow

namespace FileTree
variable {t : FileTree} {p q : List String}

theorem canonicalize_of_isFile (h : t.isFile p = true) : ∃ c, t.canonicalize p = some c := by
  rw [isFile, read, node?] at h
  cases hp : t.canonicalize p with
  | none => simp [hp] at h
  | some c => exact ⟨c, rfl⟩

/-- Paths that lead to one place are read alike. -/
theorem read_congr (h : t.canonicalize p = t.canonicalize q) : t.read p = t.read q := by
  rw [read, node?, h, ← node?, ← read]

theorem exists_canonicalize_of_append {c : List String} (h : t.canonicalize (p ++ q) = some c) :
    ∃ d, t.canonicalize p = some d :=
  exists_followPath_of_append h

theorem canonicalize_names (h : EndsWithName q) :
    t.canonicalize (p ++ q) = t.canonicalize (p ++ names q) :=
  followPath_names h

end FileTree

end Inim.Lib
