import VsphereCompliance.Accounts.Administration
import VsphereCompliance.Library.PosixPath

/-!
# Where does an uploaded logo go?

`uploadLogo` is `upload_logo`: it checks the content type and the size and joins the folder
`UPLOAD_PATH` with `logo.` and what the client's file name has after its last dot. That may have
slashes, but no dot, so the components that it adds are never `..`, and the first one starts with
`logo.` (`upload_stays_inside`).
-/

namespace VsphereCompliance.Settings

open Python PosixPath Accounts

/-- The settings that `upload_logo` reads. -/
structure UploadConfig where
  uploadPath : Str
  maxUploadSizeMb : Int

structure UploadFile where
  contentType : Option String
  filename : Option Str
  content : List UInt8

/-- What `upload_logo` asks of the file system: the folder to make and the file to write; and the
path of its answer. -/
structure LogoWrite where
  folder : Str
  path : Str
  content : List UInt8
  answer : Str
  deriving DecidableEq

/-- `allowed`. -/
def allowedTypes : List String := ["image/png", "image/jpeg", "image/svg+xml"]

/-- `ext`. -/
def extension (filename : Str) : Str := (rsplit dot filename).getLast (rsplit_ne_nil dot filename)

/-- `f"logo.{ext}"`. -/
def logoName (filename : Str) : Str := Str.ofString "logo." ++ extension filename

/-- `upload_logo`. -/
def uploadLogo (config : UploadConfig) (file : UploadFile) : Except HttpError LogoWrite :=
  if file.contentType ∉ allowedTypes.map some then .error ⟨400, "Only PNG, JPEG, SVG allowed"⟩
  else if file.content.length > config.maxUploadSizeMb * 1024 * 1024 then
    .error ⟨400, "File too large"⟩
  else match file.filename with
    | none => .error serverError
    | some filename => .ok {
        folder := config.uploadPath
        path := join config.uploadPath (logoName filename)
        content := file.content
        answer := Str.ofString "/uploads/" ++ logoName filename }

/-- The content type and the size are accepted. -/
structure AcceptedUpload (config : UploadConfig) (file : UploadFile) : Prop where
  type_mem : file.contentType ∈ allowedTypes.map some
  length_le : file.content.length ≤ config.maxUploadSizeMb * 1024 * 1024

theorem uploadLogo_of_accepted {config : UploadConfig} {file : UploadFile}
    (haccepted : AcceptedUpload config file) {filename : Str}
    (hname : file.filename = some filename) :
    uploadLogo config file = .ok ⟨config.uploadPath,
      join config.uploadPath (logoName filename), file.content,
      Str.ofString "/uploads/" ++ logoName filename⟩ := by
  have hlength := haccepted.length_le
  rw [uploadLogo, if_neg (not_not.mpr haccepted.type_mem), if_neg (by omega), hname]

/-! ## The name of the file -/

theorem dot_notMem_extension (filename : Str) : dot ∉ extension filename :=
  notMem_getLast_rsplit dot filename

theorem head?_logoName (filename : Str) : (logoName filename).head? = some (.scalar 'l') := by
  simp [logoName, Str.ofString]

/-- The extension continues the first component, and has the others. -/
theorem components_logoName (filename : Str) :
    ∃ first rest, components (logoName filename) = (Str.ofString "logo." ++ first) :: rest ∧
      ∀ c ∈ rest, dot ∉ c := by
  have happend : components (logoName filename) =
      (components (extension filename)).modifyHead (Str.ofString "logo." ++ ·) :=
    components_append (by decide) (extension filename)
  obtain ⟨first, rest, hcons⟩ :=
    List.exists_cons_of_ne_nil (List.splitOn_ne_nil slash (extension filename))
  have hcomponents : components (extension filename) = first :: rest := hcons
  rw [hcomponents, List.modifyHead_cons] at happend
  refine ⟨first, rest, happend, ?_⟩
  intro c hc hdot
  have hmem : c ∈ components (extension filename) := by
    rw [hcomponents]
    exact List.mem_cons_of_mem first hc
  exact dot_notMem_extension filename (mem_of_mem_components hmem hdot)

theorem dotdot_notMem_logoName (filename : Str) :
    [dot, dot] ∉ components (logoName filename) := by
  obtain ⟨first, rest, hcomponents, hrest⟩ := components_logoName filename
  rw [hcomponents, List.mem_cons]
  rintro (hfirst | hmem)
  · have hlength := congrArg List.length hfirst
    simp [Str.ofString] at hlength
  · exact hrest _ hmem List.mem_cons_self

/-- **Every accepted upload is written inside the folder**, whatever the name of the file is. -/
theorem upload_stays_inside {config : UploadConfig} {file : UploadFile}
    (haccepted : AcceptedUpload config file) {filename : Str}
    (hname : file.filename = some filename) (cwd : List Str) :
    ∃ write, uploadLogo config file = .ok write ∧
      Inside (resolve cwd config.uploadPath) (resolve cwd write.path) := by
  refine ⟨_, uploadLogo_of_accepted haccepted hname, ?_⟩
  have hrelative : (logoName filename).head? ≠ some slash := by
    rw [head?_logoName]
    decide
  refine ⟨_, ?_, resolve_join hrelative (dotdot_notMem_logoName filename) cwd config.uploadPath⟩
  obtain ⟨first, rest, hcomponents, _⟩ := components_logoName filename
  have hnamed : stays (Str.ofString "logo." ++ first) = false := by
    simp [stays, Str.ofString]
  rw [hcomponents, List.filter_cons_of_pos (by simp [hnamed])]
  exact List.cons_ne_nil _ _

/-- A name that tries to leave the folder. -/
theorem upload_of_climbing_name :
    ∃ write, uploadLogo ⟨Str.ofString "/app/uploads", 5⟩
        ⟨some "image/png", some (Str.ofString "x./../../etc/passwd"), [0x89]⟩ = .ok write ∧
      Inside (resolve [] (Str.ofString "/app/uploads")) (resolve [] write.path) :=
  upload_stays_inside ⟨by decide, by decide⟩ rfl []

end VsphereCompliance.Settings
