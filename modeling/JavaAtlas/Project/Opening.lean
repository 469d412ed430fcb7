import JavaAtlas.Project.Loading
import JavaAtlas.Session

set_option autoImplicit false

/-! # Opening a project -/

namespace JavaAtlas.Project

/-- A session on a project whose atlas has been drawn, or could not be drawn: what the caller is
told, the session, and the file system as drawing leaves it. -/
def openSession (launcher : Launcher) (env : Environment) (settings : Config.Settings)
    (files : FileSystem) (project : Path) : Except Failure Unit × Session × FileSystem :=
  let (drawn, files) := drawAtlas launcher env settings files project
  let (told, session) := (Session.new project).start fun _ => drawn
  (told, session, files)

end JavaAtlas.Project
