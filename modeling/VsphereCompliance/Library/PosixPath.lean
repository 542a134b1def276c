import VsphereCompliance.Library.PythonText

/-!
# POSIX paths

A path is a string; its components are what stands between the slashes. `join` is
`posixpath.join` of two paths, and `resolve` follows the components from the root or from the
working directory: an empty one and `.` stay, and `..` goes up, where the root is above itself.

A relative path without a component `..` stays inside the folder that it is joined to
(`resolve_join`).
-/

namespace PosixPath

open Python

def slash : CodePoint := .scalar '/'

def dot : CodePoint := .scalar '.'

/-- `posixpath.join(a, b)`. -/
def join (a b : Str) : Str :=
  if b.head? = some slash then b
  else if a = [] ∨ a.getLast? = some slash then a ++ b
  else a ++ slash :: b

def components (path : Str) : List Str := path.splitOn slash

/-- The component denotes the directory that it stands in. -/
def stays (component : Str) : Bool := component = [] || component = [dot]

/-- The directory after one more component. -/
def follow (dir : List Str) (component : Str) : List Str :=
  if stays component then dir
  else if component = [dot, dot] then dir.dropLast
  else dir ++ [component]

/-- The names from the root to what the path denotes. -/
def resolve (cwd : List Str) (path : Str) : List Str :=
  (components path).foldl follow (if path.head? = some slash then [] else cwd)

/-- The path lies inside the folder. -/
def Inside (folder path : List Str) : Prop := ∃ rest, rest ≠ [] ∧ path = folder ++ rest

/-! ## Components -/

theorem components_append_slash (a b : Str) :
    components (a ++ slash :: b) = components a ++ components b := by
  simp only [components, List.splitOn_eq_splitOnP]
  exact List.splitOnP_append_cons a b (by simp)

/-- A text without a slash belongs to the first component. -/
theorem components_append {p : Str} (hp : slash ∉ p) (s : Str) :
    components (p ++ s) = (components s).modifyHead (p ++ ·) := by
  induction p with
  | nil =>
    obtain ⟨first, rest, hcons⟩ := List.exists_cons_of_ne_nil (List.splitOn_ne_nil slash s)
    simp [components, hcons]
  | cons c p ih =>
    obtain ⟨hc, hp⟩ : slash ≠ c ∧ slash ∉ p := by simpa using hp
    have hne : (c == slash) = false := by simpa using Ne.symm hc
    obtain ⟨first, rest, hcons⟩ := List.exists_cons_of_ne_nil (List.splitOn_ne_nil slash s)
    have ih := ih hp
    simp only [components, hcons, List.modifyHead_cons] at ih ⊢
    rw [List.cons_append, List.splitOn_cons_eq_if_modifyHead, ih, hne]
    simp

theorem mem_of_mem_components {path component : Str} (h : component ∈ components path)
    {c : CodePoint} (hc : c ∈ component) : c ∈ path := by
  induction path generalizing component with
  | nil =>
    obtain rfl : component = [] := by simpa [components] using h
    cases hc
  | cons x path ih =>
    obtain ⟨first, rest, hcons⟩ := List.exists_cons_of_ne_nil (List.splitOn_ne_nil slash path)
    simp only [components] at h ih
    rw [List.splitOn_cons_eq_if_modifyHead, hcons] at h
    rw [hcons] at ih
    by_cases hx : (x == slash) = true
    · rw [if_pos hx] at h
      rcases List.mem_cons.mp h with rfl | h
      · cases hc
      · exact List.mem_cons_of_mem _ (ih h hc)
    · rw [if_neg hx, List.modifyHead_cons] at h
      rcases List.mem_cons.mp h with rfl | h
      · rcases List.mem_cons.mp hc with rfl | hc
        · exact List.mem_cons_self
        · exact List.mem_cons_of_mem _ (ih List.mem_cons_self hc)
      · exact List.mem_cons_of_mem _ (ih (List.mem_cons_of_mem _ h) hc)

/-! ## Following components -/

/-- Without `..` the components that name something are appended. -/
theorem foldl_follow {cs : List Str} (hup : [dot, dot] ∉ cs) (dir : List Str) :
    cs.foldl follow dir = dir ++ cs.filter fun c => !stays c := by
  induction cs generalizing dir with
  | nil => simp
  | cons c cs ih =>
    obtain ⟨hc, hcs⟩ : [dot, dot] ≠ c ∧ [dot, dot] ∉ cs := by simpa using hup
    rw [List.foldl_cons, ih hcs]
    by_cases hstays : stays c = true
    · simp [follow, hstays]
    · simp [follow, hstays, Ne.symm hc]

/-- A slash at the end is an empty component. -/
theorem foldl_follow_append_slash (dir : List Str) (a : Str) :
    (components (a ++ [slash])).foldl follow dir = (components a).foldl follow dir := by
  rw [components_append_slash]
  simp [components, follow, stays]

/-- Joining a relative path is following its components from the folder. -/
theorem resolve_join_eq_foldl {b : Str} (hb : b.head? ≠ some slash) (cwd : List Str) (a : Str) :
    resolve cwd (join a b) = (components b).foldl follow (resolve cwd a) := by
  rw [join, if_neg hb]
  by_cases hnil : a = []
  · subst hnil
    simp [resolve, components, follow, stays, hb]
  · have hhead (s : Str) : (a ++ s).head? = a.head? := by
      rw [List.head?_append_of_ne_nil a hnil]
    by_cases hlast : a.getLast? = some slash
    · obtain ⟨init, rfl⟩ := List.getLast?_eq_some_iff.mp hlast
      rw [if_pos (Or.inr hlast), resolve, resolve, hhead, foldl_follow_append_slash,
        List.append_assoc, List.singleton_append, components_append_slash, List.foldl_append]
    · rw [if_neg (by simp [hnil, hlast]), resolve, resolve, hhead, components_append_slash,
        List.foldl_append]

/-- **A relative path without `..` stays inside the folder.** -/
theorem resolve_join {b : Str} (hb : b.head? ≠ some slash) (hup : [dot, dot] ∉ components b)
    (cwd : List Str) (a : Str) :
    resolve cwd (join a b) =
      resolve cwd a ++ (components b).filter fun c => !stays c := by
  rw [resolve_join_eq_foldl hb, foldl_follow hup]

end PosixPath
