import LogRelay.CommandLine.Basic
import LogRelay.Gateway.Transport
import LogRelay.Gateway.Client
import LogRelay.Loop
import LogRelay.Status
import Std.Async.DNS
import Std.Async.System
import Std.Async.TCP
import Std.Async.Timer

/-! The program: carries out what the command line asks for. -/

namespace LogRelay.Program

open Std.Async

/-! Files and variables. -/

def placeOf (cwd : Place) (disk : Disk) (path : String) : Place :=
  match disk.locate cwd path with
  | .ok place => place
  | .error _ =>
    let names := (path.splitOn "/").filter fun n => n ≠ "" && n ≠ "."
    if path.startsWith "/" then names else cwd ++ names

def observe (cwd : Place) (disk : Disk) (path : String) : IO Disk := do
  let place := placeOf cwd disk path
  try
    let content ← IO.FS.readBinFile path
    return disk.write place content.toList
  catch
    | .inappropriateType .. => return { disk with directories := place :: disk.directories }
    | _ => return disk

def observeVariables (disk : Disk) : IO Environment := do
  let names := disk.files.flatMap fun (_, content) =>
    ((Utf8.decode? content).map Reference.names).getD []
  let values ← names.filterMapM fun name => do
    return (← IO.getEnv name).map fun value => (name, value)
  return fun name => values.lookup name

/-- What the command finds, as far as its arguments let it look. -/
def surroundings (args : List String) : IO CommandLine.Surroundings := do
  let home := (← System.getHomeDir).toString
  let cwd := ((← Std.Internal.UV.System.cwd).splitOn "/").filter (· ≠ "")
  let named := match CommandLine.parse args with
    | .invocation i => i.config.toList.map (Config.expandTilde home)
    | _ => []
  let paths := named ++ [Config.userLocation home, Config.systemLocation]
  let disk ← paths.foldlM (observe cwd) { directories := [cwd] }
  return { env := ← observeVariables disk, home, cwd, disk }

def store (before after : Disk) : IO Unit :=
  for (place, content) in after.files do
    if before.file? place ≠ some content then
      let path (p : Place) : String := "/" ++ "/".intercalate p
      IO.FS.createDirAll (path place.dropLast)
      IO.FS.writeBinFile (path place) ⟨content.toArray⟩

/-! The remote. -/

def within {α : Type} (milliseconds : Nat) (action : Async α) : IO (Option α) :=
  Async.block do
    Async.race (do return some (← action))
      (do sleep ⟨(milliseconds : Int)⟩; return none)

partial def receive (socket : TCP.Socket.Client) (seen : ByteArray) : Async Gateway.Response := do
  match ← socket.recv? 65536 with
  | none => return (Gateway.Response.ofBytes? true seen.toList).getD .broken
  | some more =>
    let seen := seen ++ more
    match Gateway.Response.ofBytes? false seen.toList with
    | some r => return r
    | none => receive socket seen

def exchange (server : Url) (r : Gateway.Request) : Async Gateway.Response := do
  let addresses ← DNS.getAddrInfo server.host server.port.repr
  match addresses[0]? with
  | none => return .broken
  | some address =>
    let socket ← TCP.Socket.Client.mk
    let port := server.port.toUInt16
    socket.connect (match address with
      | .v4 a => .v4 ⟨a, port⟩
      | .v6 a => .v6 ⟨a, port⟩)
    socket.send ⟨(r.bytes server).toArray⟩
    receive socket ByteArray.empty

def milliseconds (d : Duration) : Nat := d.toNanos / 1000000

/-- One exchange, given up when the time for it or for the whole call is over. -/
def attempt (remote : RemoteSettings) (deadline : Nat) (r : Gateway.Request) :
    IO Gateway.Response := do
  let now ← IO.monoMsNow
  match Gateway.server? remote.endpoint with
  | none => return .broken
  | some server =>
    if deadline ≤ now then return .late
    let limit := milliseconds remote.requestTimeout
    try
      match ← within (min limit (deadline - now)) (exchange server r) with
      | some response => return response
      | none => return if deadline - now < limit then .late else .broken
    catch _ => return .broken

def hold {Q A α : Type} (answer : Q → IO A) : Dialogue Q A α → IO α
  | .done a => return a
  | .ask q next => do hold answer (next (← answer q))

/-! The run. -/

structure Session where
  config : Config
  naming : Naming
  -- Milliseconds on the steady clock.
  started : Nat
  registry : IO.Ref Registry
  held : IO.Ref Bool
  ended : IO.Ref Bool

namespace Session

def perform (s : Session) (op : Operation) : IO Unit := do
  s.held.set true
  let remote := s.config.remote
  let answer (asked : Inquiry) : IO Reply := do
    s.registry.set asked.registry
    let deadline := (← IO.monoMsNow) + milliseconds remote.callTimeout
    hold (attempt remote deadline) (Gateway.reply 100000 asked.call)
  let (r, _) ← hold answer (op.course .byName (← s.registry.get))
  s.registry.set r
  s.held.set false

def report (s : Session) : IO StatusReport := do
  let r ← s.registry.get
  return {
    uptime := .ofMillis ((← IO.monoMsNow) - s.started)
    limits := r.limits
    tally := r.tally
    sources := if ← s.held.get then none else some r.snapshot }

-- Milliseconds that a request for a page may take.
def pageLimit : Nat := 1000

-- Milliseconds between two looks at what is new.
def pause : UInt32 := 10

partial def answerPage (s : Session) (socket : TCP.Socket.Client) (seen : ByteArray) :
    Async Unit := do
  match Http.requested? seen.toList with
  | some (method, path) =>
    socket.send ⟨(StatusPage.answer (← s.report) method path).bytes.toArray⟩
    socket.shutdown
  | none =>
    match ← socket.recv? 4096 with
    | some more => s.answerPage socket (seen ++ more)
    | none => return ()

partial def answerPages (s : Session) (server : TCP.Socket.Server) : IO Unit := do
  if ← s.ended.get then return ()
  match ← server.tryAccept with
  | some socket =>
    let _ ← within pageLimit (s.answerPage socket ByteArray.empty)
  | none => IO.sleep pause
  s.answerPages server

def servePages (s : Session) : IO (Task (Except IO.Error Unit)) := do
  match s.config.status.bind fun status => SocketAddress.parse? status.listen with
  | none => return .pure (.ok ())
  | some address =>
    try
      let server ← TCP.Socket.Server.mk
      server.bind (socketAddress address)
      server.listen 128
      IO.asTask (s.answerPages server) .dedicated
    catch _ => return .pure (.ok ())
where
  socketAddress : SocketAddress → Std.Net.SocketAddress
    | .v4 octets port =>
      let o (i : Nat) : UInt8 := (octets.getD i 0).toUInt8
      .v4 ⟨.ofParts (o 0) (o 1) (o 2) (o 3), port.toUInt16⟩
    | .v6 groups _ port =>
      let g (i : Nat) : UInt16 := (groups.getD i 0).toUInt16
      .v6 ⟨.ofParts (g 0) (g 1) (g 2) (g 3) (g 4) (g 5) (g 6) (g 7), port.toUInt16⟩

def wallClock : IO Int := do
  return (← Std.Time.Timestamp.now).toMillisecondsSinceUnixEpoch.val

partial def readPiece (input : IO.FS.Stream) (seen : ByteArray) : IO ByteArray := do
  let more ← input.read 1
  let seen := seen ++ more
  if more.isEmpty || more.get! 0 = Framer.lineFeed || 65536 ≤ seen.size then return seen
  else readPiece input seen

def nextPiece (input : IO.FS.Stream) : IO (Task (Except IO.Error ByteArray)) :=
  IO.asTask (readPiece input ByteArray.empty) .dedicated

/-- Does what comes next, and else waits for what is read next. -/
partial def attend (s : Session) (input : IO.FS.Stream) (l : Loop)
    (piece : Task (Except IO.Error ByteArray)) : IO Unit := do
  match l.heed (.turn (← IO.monoNanosNow) (← wallClock)) with
  | (some o, l) =>
    if o = .cancel then s.ended.set true
    s.perform (s.naming.asks o)
    if o ≠ .cancel then s.attend input l piece
  | (none, l) =>
    if ← IO.hasFinished piece then
      match piece.get with
      | .error _ => s.attend input (l.heed (.ended .failure)).2 piece
      | .ok bytes =>
        if bytes.isEmpty then s.attend input (l.heed (.ended .endOfInput)).2 piece
        else s.attend input (l.heed (.read bytes.toList)).2 (← nextPiece input)
    else
      IO.sleep pause
      s.attend input l piece

def run (s : Session) : IO Unit := do
  let input ← IO.getStdin
  let pages ← s.servePages
  s.attend input (.start s.config (← IO.monoNanosNow)) (← nextPiece input)
  let _ ← IO.wait pages

end Session

def ship (c : Config) : IO Unit := do
  let host ← try System.getHostName catch _ => pure "logship"
  let session : Session := {
    config := c
    naming := Shipping.naming host c
    started := ← IO.monoMsNow
    registry := ← IO.mkRef (Shipping.registry c)
    held := ← IO.mkRef false
    ended := ← IO.mkRef false }
  session.run

end LogRelay.Program

def main (args : List String) : IO UInt32 := do
  let s ← LogRelay.Program.surroundings args
  match LogRelay.CommandLine.plan s args with
  | .report r =>
    (← IO.getStdout).putStr r.output
    (← IO.getStderr).putStr r.errors
    LogRelay.Program.store s.disk r.disk
    return r.exit.toUInt32
  | .ship c =>
    LogRelay.Program.ship c
    return 0
