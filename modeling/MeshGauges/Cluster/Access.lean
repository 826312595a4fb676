import MeshGauges.Journal
import MeshGauges.Settings.Basic
import MeshGauges.Tree.Literal

/-! Access to the cluster: which server is talked to, and whether it answers.

A configuration file that the settings name is used. Without one the account of the surrounding cluster
is tried first, then the usual configuration file. A server in the settings replaces the one found. -/

set_option autoImplicit false

namespace MeshGauges.Cluster

inductive CredentialSource where
  | insideCluster
  | configFile (path : Option String)
  deriving Repr, DecidableEq

structure Access where
  server : String
  tried : List CredentialSource
  journal : Journal
  deriving Repr

/-- Find the server. The server inside a cluster may be missing; configuration files have one. -/
def findAccess (settings : Settings) (insideServer : Option String) (fileServer : String) : Access :=
  let found : Access :=
    match Settings.nonEmpty settings.kubeconfig, insideServer with
    | some path, _ =>
        ⟨fileServer, [.configFile (some path)], [.info ("Loaded kubeconfig from " ++ path)]⟩
    | none, some server => ⟨server, [.insideCluster], [.info "Loaded in-cluster Kubernetes config"]⟩
    | none, none =>
        ⟨fileServer, [.insideCluster, .configFile none], [.info "Loaded kubeconfig"]⟩
  { found with server := (Settings.nonEmpty settings.apiserver).getD found.server }

structure ServerVersion where
  major : Tree
  minor : Tree
  gitVersion : Tree
  platform : Tree
  deriving Repr

/-- Ask a server for its version. One that does not answer is reported and is no reason to stop. -/
def probe (answer : Except String ServerVersion) : Tree × Journal :=
  let asked : Message := .info "Testing communication with server"
  match answer with
  | .error text =>
      (.null, [asked, .warning ("Could not reach the apiserver, mirrors will keep retrying: " ++ text)])
  | .ok version =>
      (version.gitVersion,
        [asked, .info ("Running with Kubernetes cluster version: v" ++ version.major.asText ++ "." ++
          version.minor.asText ++ ". git version: " ++ version.gitVersion.asText ++ ". platform: " ++
          version.platform.asText)])

end MeshGauges.Cluster
