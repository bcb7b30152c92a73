import WorkStealing.Ident
import WorkStealing.Text.Digits

/-!
# Endpoints

Where a node can be reached: at a local socket, by its name, or at a port of a host. An endpoint is
written as a text; reading one names the socket by the file name in the text, without its extension.
-/

namespace WorkStealing

/-- Where a node can be reached. -/
inductive Endpoint where
  /-- A local socket of a name. -/
  | ipc (name : String)
  | tcp (host : String) (port : UInt16)
deriving DecidableEq, Repr, Inhabited

/-- Why a text is no endpoint. -/
inductive EndpointFault where
  | noSocketName (text : String)
  | noPort (text : String)
  | badPort (text : String)
  | noHost (text : String)
  | unknownScheme (text : String)
deriving DecidableEq, Repr, Inhabited

def EndpointFault.message : EndpointFault → String
  | .noSocketName t => "ipc endpoint '" ++ t ++ "' has no socket name"
  | .noPort t => "tcp endpoint '" ++ t ++ "' has no port"
  | .badPort t => "tcp endpoint '" ++ t ++ "' has a bad port"
  | .noHost t => "tcp endpoint '" ++ t ++ "' has no host"
  | .unknownScheme t => "endpoint '" ++ t ++ "' must start with ipc:// or tcp://"

namespace Endpoint

/-- The directory of the local sockets. -/
def socketDirectory : String := "/tmp/hive"

/-- The socket of a node. -/
def forNode (node : Location) : Endpoint := .ipc ("node-" ++ Nat.repr node.id.toNat)

/-- The written form of an endpoint. -/
def text : Endpoint → String
  | .ipc name => "ipc://" ++ socketDirectory ++ "/" ++ name ++ ".sock"
  | .tcp host port => "tcp://" ++ host ++ ":" ++ Nat.repr port.toNat

/-- Split at the last of some character; none if there is none. -/
def splitLast? (mark : Char) (cs : List Char) : Option (List Char × List Char) :=
  let after := (cs.reverse.takeWhile (· ≠ mark)).reverse
  match cs.reverse.dropWhile (· ≠ mark) with
  | _ :: before => some (before.reverse, after)
  | [] => none

/-- The parts of a path between slashes. -/
def pathParts : List Char → List (List Char)
  | [] => [[]]
  | '/' :: rest => [] :: pathParts rest
  | c :: rest =>
    match pathParts rest with
    | part :: parts => (c :: part) :: parts
    | [] => [[c]]

/-- The file that a path names: its last part, where empty parts and single dots do not count. -/
def fileName? (path : List Char) : Option (List Char) :=
  ((pathParts path).filter fun part => part ≠ [] ∧ part ≠ ['.']).getLast?.filter
    fun part => part ≠ ['.', '.']

/-- A file's name without its extension; a dot in front starts no extension. -/
def fileStem? (path : List Char) : Option (List Char) :=
  (fileName? path).map fun name =>
    match splitLast? '.' name with
    | some ([], _) => name
    | some (stem, _) => stem
    | none => name

/-- What follows a piece in front of a text, if it is there. -/
def after? (lead : String) (s : String) : Option (List Char) :=
  if lead.toList.isPrefixOf s.toList then some (s.toList.drop lead.length) else none

/-- Read an endpoint. -/
def parse (s : String) : Except EndpointFault Endpoint :=
  match after? "ipc://" s, after? "tcp://" s with
  | some path, _ =>
    match fileStem? path with
    | some name => .ok (.ipc (String.ofList name))
    | none => .error (.noSocketName s)
  | none, some address =>
    match splitLast? ':' address with
    | none => .error (.noPort s)
    | some (host, port) =>
      match Text.parseNat? 65535 (String.ofList port) with
      | none => .error (.badPort s)
      | some n =>
        if host = [] then .error (.noHost s)
        else .ok (.tcp (String.ofList host) (UInt16.ofNat n))
  | none, none => .error (.unknownScheme s)

end Endpoint

end WorkStealing
