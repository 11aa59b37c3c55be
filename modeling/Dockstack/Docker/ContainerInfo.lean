import Dockstack.Base.Regex
import Dockstack.Base.Words
import Dockstack.Docker.Containers
import Dockstack.Docker.Images

/-!
# What is shown of a container

`internal/docker/containers.go:32–152`: the status, the addresses and the ports that are read
off a container of the daemon.
-/

namespace Dockstack.Docker

open Dockstack.Base

/-- `container.Port`. -/
structure PortSummary where
  privatePort : UInt16
  publicPort : UInt16
  type : String
  deriving DecidableEq

/-- A container with its ports. -/
structure ContainerSummary extends Summary where
  ports : List PortSummary

/-- `StackStatus`; `models.go:3–16`. -/
inductive StackStatus where
  | running
  | healthy
  | unhealthy
  | starting
  | restarting
  | partially
  | stopped
  | down
  | unknown
  | missing
  deriving DecidableEq

/-- `Port`; `models.go:18–23`. -/
structure Port where
  hostPort : Nat
  containerPort : Nat
  protocol : String
  hostName : String
  deriving DecidableEq

/-- `ContainerInfo`; `models.go:25–35`. -/
structure ContainerInfo where
  id : String
  serviceName : Option String
  name : String
  image : String
  stack : Option String
  status : StackStatus
  uptime : String
  ports : List Port
  urls : List String
  deriving DecidableEq

/-- `containerStateToStatus`; `containers.go:32–54`. -/
def containerStateToStatus (state status : String) : StackStatus :=
  if state = "running" then
    if contains status "(healthy)" then .healthy
    else if contains status "(unhealthy)" then .unhealthy
    else if contains status "(health: starting)" then .starting
    else .running
  else if state = "restarting" then .restarting
  else if state = "exited" ∨ state = "paused" then .stopped
  else if state = "dead" ∨ state = "created" ∨ state = "removing" then .down
  else .unknown

/-! ## Addresses -/

/-- `traefikRuleRe.MatchString`; `containers.go:56`. -/
def traefikRuleRe (label : String) : Bool :=
  let rest := label.toList.drop "traefik.http.routers.".length
  hasPrefix label "traefik.http.routers." && ".rule".toList.isSuffixOf rest &&
    !rest.contains '\n'

/-- The quote of a host rule. -/
def backtick : Char := Char.ofNat 0x60

/-- The group of `hostRuleRe.FindStringSubmatch`; `containers.go:57`. -/
def hostRuleRe (rule : List Char) : Option (List Char) :=
  if "Host(`".toList.isPrefixOf rule then
    let rest := rule.drop "Host(`".length
    let host := rest.takeWhile (· != backtick)
    if "`)".toList.isPrefixOf (rest.drop host.length) then some host else none
  else none

/-- The address of an alias, none if it is blank; `containers.go:63–73`. -/
def aliasURL (baseDomain : String) (part : List Char) : Option String :=
  let a := trimSpace part
  if a = [] then none
  else if a.contains '.' then some ("https://" ++ .ofList a)
  else some ("https://" ++ .ofList a ++ "." ++ baseDomain)

/-- The address of a rule of Traefik, if it is one of a host; `containers.go:80–89`. -/
def ruleURL (rule : List Char) : Option String :=
  (hostRuleRe (trimSpace rule)).map fun host ↦ "https://" ++ .ofList host

/-- `getContainerURLs`; `containers.go:59–94`. Go ranges over a map in any order; here the first
label in the order of the map's entries counts. -/
def getContainerURLs (labels : KeyMap String String) (baseDomain : String) : List String :=
  match if baseDomain = "" then none else labels.get? "proxy.aliases" with
  | some aliases => (aliases.toList.splitOn ',').filterMap (aliasURL baseDomain)
  | none =>
    match labels.entries.find? (fun e ↦ traefikRuleRe e.1) with
    | some e => (e.2.toList.splitOn ',').filterMap ruleURL
    | none => []

/-! ## Ports -/

/-- The key under which a port is seen; `containers.go:132`. -/
def portKey (port : Nat) (protocol : String) : String := toString port ++ "/" ++ protocol

/-- The loop over the ports: published ones, each once; `containers.go:127–143`. -/
def mapPorts (serverHost : String) : List String → List PortSummary → List Port
  | _, [] => []
  | seen, p :: ports =>
    let key := portKey p.publicPort.toNat p.type
    if p.publicPort = 0 then mapPorts serverHost seen ports
    else if seen.contains key then mapPorts serverHost seen ports
    else
      ⟨p.publicPort.toNat, p.privatePort.toNat, p.type, serverHost⟩ ::
        mapPorts serverHost (key :: seen) ports

/-! ## Containers -/

/-- `truncateID`; `containers.go:147–152`. -/
def truncateID (id : String) : String :=
  if 12 < id.length then .ofList (id.toList.take 12) else id

/-- The expression `\s*\(.*?\)` of `containers.go:111`: what is in the parentheses ends at the
first closing one. -/
def uptimeRe : Regex Char :=
  .seq (.star (['\t', '\n', '\x0c', '\r', ' '].contains ·)) (.seq (.cls (· == '('))
    (.seq (.star (fun c ↦ c != ')' && c != '\n')) (.cls (· == ')'))))

/-- The status without what is in parentheses; `containers.go:111`. -/
def uptime (status : String) : String :=
  .ofList (trimSpace (uptimeRe.replaceAllFunc '\n' status.toList (fun _ ↦ [])))

/-- `mapContainer`; `containers.go:106–145`. -/
def mapContainer (c : ContainerSummary) (serverHost baseDomain : String) : ContainerInfo where
  id := truncateID c.id
  serviceName := c.labels.get? serviceLabel
  name :=
    match c.names with
    | name :: _ => trimPrefix name "/"
    | [] => truncateID c.id
  image := formatImageTag c.image
  stack := c.labels.get? projectLabel
  status := containerStateToStatus c.state c.status
  uptime := uptime c.status
  ports := mapPorts serverHost [] c.ports
  urls := getContainerURLs c.labels baseDomain

end Dockstack.Docker
