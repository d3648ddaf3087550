import PiRelay.Library.Text

/-! The configuration of a workspace base (`workspaces/config.rs`). -/
namespace PiRelay.AgentRuntime

open Library (trim)

inductive WorkspaceKind where
  | git
  | localDir
deriving DecidableEq

structure ProjectWorkspace where
  kind : WorkspaceKind
  workspaceDir : String
  remoteUrl : Option String
  remoteBranch : Option String
  sourcePath : Option String

structure WorkspaceBaseConfig where
  kind : WorkspaceKind
  workspaceDir : String
  remoteUrl : Option String
  remoteBranch : Option String
  sourcePath : Option String
deriving DecidableEq

def trimmed (text : String) : String := String.ofList (trim text.toList)

def isWorkspaceDirChar (char : Char) : Bool := char.isAlphanum || char == '_' || char == '-'

/-- The source also asks for a single path component, which every name of these characters
is. It counts the characters as bytes; those of other characters are no name bytes. -/
def validateWorkspaceDir (workspaceDir : String) : Except String Unit :=
  let workspaceDir := trimmed workspaceDir
  if workspaceDir = "" then .error "workspace_dir is required"
  else if workspaceDir.toList.head? = some '.' then
    .error ("workspace_dir must not start with '.': " ++ workspaceDir)
  else if workspaceDir.toList.contains '/' then
    .error ("workspace_dir must be a direct child name: " ++ workspaceDir)
  else if !workspaceDir.toList.all isWorkspaceDirChar then
    .error ("workspace_dir may only contain ASCII letters, digits, '_' and '-': " ++ workspaceDir)
  else .ok ()

def requiredField (kind : String) (value : Option String) (field : String) : Except String String :=
  let value := trimmed (value.getD "")
  if value = "" then .error (kind ++ " workspace " ++ field ++ " is required") else .ok value

def requiredGitField (value : Option String) (field : String) : Except String String :=
  requiredField "git" value field

def requiredLocalField (value : Option String) (field : String) : Except String String :=
  requiredField "local" value field

def workspaceBaseConfig (isDir : String → Bool) (workspace : ProjectWorkspace) :
    Except String WorkspaceBaseConfig := do
  validateWorkspaceDir workspace.workspaceDir
  let workspaceDir := trimmed workspace.workspaceDir
  match workspace.kind with
  | .git =>
    let remoteUrl ← requiredGitField workspace.remoteUrl "remote_url"
    let remoteBranch ← requiredGitField workspace.remoteBranch "remote_branch"
    .ok ⟨.git, workspaceDir, some remoteUrl, some remoteBranch, none⟩
  | .localDir =>
    let sourcePath ← requiredLocalField workspace.sourcePath "source_path"
    if isDir sourcePath then .ok ⟨.localDir, workspaceDir, none, none, some sourcePath⟩
    else .error ("local workspace source_path is not a directory: " ++ sourcePath)

/-- The configurations of workspaces, unless one has none. -/
def workspaceBaseConfigs (isDir : String → Bool) (workspaces : List ProjectWorkspace) :
    Option (List WorkspaceBaseConfig) :=
  workspaces.mapM fun workspace => (workspaceBaseConfig isDir workspace).toOption

end PiRelay.AgentRuntime
