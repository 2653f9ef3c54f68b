import Snolc.WireFormat
import Snolc.CheckedSlice
import Snolc.KeyedList

set_option autoImplicit false

/-!
# The control socket

The server keeps a table of connections and polls them in turn: a connection reads one
request in pieces, hands it out, waits for the answer and writes it in pieces. The client
is one call that writes its request and reads the answer. A link joins the two: the bytes
under way in both directions, and what the engine does with the requests it is handed.
-/
namespace Snolc.Control
open ByteOrder WireFormat CheckedSlice

def requestHeaderBytes : ℕ := 8
def responseHeaderBytes : ℕ := 5
def maxInstanceBytes : ℕ := 128

/-- `max_request_bytes` as the validation of the configuration lets it through. -/
structure Limit where
  bytes : ℕ
  nonzero : bytes ≠ 0
  small : bytes < 2 ^ 32

inductive ControlError where
  | io
  | frame
  | closed
  | remote (text : String)
  deriving DecidableEq, Repr

/-- What the engine sends over the oneshot channel, or that it dropped the sender. -/
inductive Answer where
  | ok (payload : List UInt8)
  | failed (text : String)
  | canceled
  deriving DecidableEq, Repr

/-! ## A connection of the server -/

inductive ReadResult where
  | read (bytes : List UInt8)
  | wouldBlock
  | failed

inductive WriteResult where
  | written (count : ℕ)
  | wouldBlock
  | failed

/-- What a poll meets on its stream: the reads until one would block, or one write. -/
structure StreamIo where
  reads : List ReadResult
  write : WriteResult

/-- A receiver holds the answer once it has been sent. -/
inductive ConnectionState where
  | reading
  | dispatched
  | waiting (received : Option Answer)
  | writing (frame : List UInt8) (offset : ℕ)
  deriving DecidableEq, Repr

structure Connection where
  input : List UInt8 := []
  state : ConnectionState := .reading
  deriving DecidableEq, Repr

def requestLengths (input : List UInt8) : Option (ℕ × ℕ) :=
  if input.length < requestHeaderBytes then none
  else some (ofBytes (input.take 4), ofBytes ((input.drop 4).take 4))

/-- The loop of `read_request`; a list that is over would block. -/
def readLoop (maximum : ℕ) : List UInt8 → List ReadResult → Except ControlError (List UInt8)
  | input, [] => .ok input
  | input, .wouldBlock :: _ => .ok input
  | _, .failed :: _ => .error .io
  | input, .read bytes :: reads =>
    if bytes = [] then .error .closed
    else if maximum < saturatingSum input.length bytes.length then .error .frame
    else readLoop maximum (input ++ bytes) reads

def requestBody (input : List UInt8) (instanceLength : ℕ) : Except ControlError (Option (String × List UInt8)) :=
  match fromUtf8 ((input.drop requestHeaderBytes).take instanceLength) with
  | .error _ => .error .frame
  | .ok name => .ok (some (name, input.drop (requestHeaderBytes + instanceLength)))

def parseRequest (limit : ℕ) (input : List UInt8) : Except ControlError (Option (String × List UInt8)) :=
  match requestLengths input with
  | none => .ok none
  | some (instanceLength, requestLength) =>
    if instanceLength = 0 ∨ maxInstanceBytes < instanceLength ∨ limit < requestLength then .error .frame
    else
      match (checkedAdd requestHeaderBytes instanceLength).bind fun size => checkedAdd size requestLength with
      | none => .error .frame
      | some total =>
        if input.length < total then .ok none
        else if input.length ≠ total then .error .frame
        else requestBody input instanceLength

/-- `end` is moved back to a character boundary. -/
def boundaryBelow (text : String) : ℕ → ℕ
  | 0 => 0
  | stop + 1 => if (⟨stop + 1⟩ : String.Pos.Raw).isValid text then stop + 1 else boundaryBelow text stop

def responsePayload (limit : ℕ) : Except String (List UInt8) → UInt8 × List UInt8
  | .ok payload => (0, payload.take limit)
  | .error text => (1, (octets text).take (boundaryBelow text (min (octets text).length limit)))

def responseFrame (limit : ℕ) (response : Except String (List UInt8)) : List UInt8 :=
  let payload := responsePayload limit response
  payload.1 :: toBytes 4 payload.2.length ++ payload.2

def Answer.response : Answer → Except String (List UInt8)
  | .ok payload => .ok payload
  | .failed text => .error text
  | .canceled => .error "control response canceled"

namespace Connection

abbrev Polled := Except ControlError (Option (String × List UInt8)) × Connection

def response (c : Connection) (limit : ℕ) (response : Except String (List UInt8)) : Connection :=
  { c with state := .writing (responseFrame limit response) 0 }

def readRequest (c : Connection) (limit : ℕ) (reads : List ReadResult) : Polled :=
  match (checkedAdd requestHeaderBytes maxInstanceBytes).bind fun size => checkedAdd size limit with
  | none => (.error .frame, c)
  | some maximum =>
    match readLoop maximum c.input reads with
    | .error error => (.error error, c)
    | .ok input =>
      match parseRequest limit input with
      | .error error => (.error error, { c with input })
      | .ok none => (.ok none, { c with input })
      | .ok (some request) => (.ok (some request), { input := [], state := .dispatched })

def poll (c : Connection) (limit : ℕ) (io : StreamIo) : Polled :=
  match c.state with
  | .reading => c.readRequest limit io.reads
  | .dispatched => (.ok none, c)
  | .waiting none => (.ok none, c)
  | .waiting (some answer) => (.ok none, c.response limit answer.response)
  | .writing frame offset =>
    match io.write with
    | .written 0 => (.error .closed, c)
    | .written (count + 1) => (.ok none, { c with state := .writing frame (offset + (count + 1)) })
    | .wouldBlock => (.ok none, c)
    | .failed => (.error .io, c)

def waitFor (c : Connection) : Connection :=
  match c.state with
  | .dispatched => { c with state := .waiting none }
  | _ => c

def answered (answer : Answer) (c : Connection) : Connection :=
  match c.state with
  | .waiting none => { c with state := .waiting (some answer) }
  | _ => c

def finished (c : Connection) : Bool :=
  match c.state with
  | .writing frame offset => offset == frame.length
  | _ => false

end Connection

/-! ## The server -/

structure LocalRequest where
  connection : ℕ
  name : String
  request : List UInt8
  deriving DecidableEq, Repr

structure UnixControlServer where
  limit : Limit
  maxConnections : ℕ
  nextConnection : ℕ
  connections : List (ℕ × Connection)

namespace UnixControlServer

/-- Incoming streams are taken as long as there is room; `true` for one whose peer is the owner. -/
def accept (server : UnixControlServer) : List Bool → UnixControlServer
  | [] => server
  | owner :: incoming =>
    if server.connections.length < server.maxConnections then
      if owner then
        match checkedAdd server.nextConnection 1 with
        | none => server.accept incoming
        | some next =>
          { server with
            nextConnection := next
            connections := KeyedList.insert server.connections server.nextConnection {} }.accept incoming
      else server.accept incoming
    else server

def requestOf (id : ℕ) : Connection.Polled → Option LocalRequest
  | (.ok (some (name, request)), _) => some ⟨id, name, request⟩
  | _ => none

def kept : Connection.Polled → Option Connection
  | (.error _, _) => none
  | (.ok _, c) => if c.finished then none else some c

def poll (server : UnixControlServer) (incoming : List Bool) (io : ℕ → StreamIo) :
    List LocalRequest × UnixControlServer :=
  let server := server.accept incoming
  (server.connections.filterMap fun e => requestOf e.1 (e.2.poll server.limit.bytes (io e.1)),
    { server with connections := server.connections.filterMap fun e =>
        (kept (e.2.poll server.limit.bytes (io e.1))).map fun c => (e.1, c) })

def waitFor (server : UnixControlServer) (id : ℕ) : UnixControlServer :=
  { server with connections := KeyedList.modify server.connections id Connection.waitFor }

def reject (server : UnixControlServer) (id : ℕ) (error : String) : UnixControlServer :=
  { server with connections := KeyedList.modify server.connections id fun c =>
      c.response server.limit.bytes (.error error) }

def answered (server : UnixControlServer) (id : ℕ) (answer : Answer) : UnixControlServer :=
  { server with connections := KeyedList.modify server.connections id (Connection.answered answer) }

end UnixControlServer

/-! ## The client -/

def encodeRequest (name : String) (request : List UInt8) : List UInt8 :=
  toBytes 4 (octets name).length ++ toBytes 4 request.length ++ octets name ++ request

/-- Where the call of `request` is: at the writes, at the read of the header, at the read of
    the payload, or back at its caller, with the stream closed. -/
inductive Client where
  | sending (rest : List UInt8)
  | header (got : List UInt8)
  | payload (status : UInt8) (length : ℕ) (got : List UInt8)
  | returned (result : Except ControlError (List UInt8))

namespace Client

def request (name : String) (request : List UInt8) : Client :=
  if (octets name).length = 0 ∨ maxInstanceBytes < (octets name).length ∨ 2 ^ 32 ≤ (octets name).length ∨
      2 ^ 32 ≤ request.length then
    .returned (.error .frame)
  else .sending (encodeRequest name request)

def decode (status : UInt8) (payload : List UInt8) : Except ControlError (List UInt8) :=
  if status = 0 then .ok payload
  else if status = 1 then
    match fromUtf8 payload with
    | .ok text => .error (.remote text)
    | .error _ => .error .frame
  else .error .frame

/-- How many bytes the `read_exact` at hand still asks for. -/
def wanted : Client → ℕ
  | .header got => responseHeaderBytes - got.length
  | .payload _ length got => length - got.length
  | _ => 0

def receive (maxResponse : ℕ) (bytes : List UInt8) : Client → Client
  | .header got =>
    if (got ++ bytes).length < responseHeaderBytes then .header (got ++ bytes)
    else
      let status := (got ++ bytes).headD 0
      let length := ofBytes ((got ++ bytes).drop 1)
      if maxResponse < length then .returned (.error .frame)
      else if length = 0 then .returned (decode status [])
      else .payload status length []
  | .payload status length got =>
    if (got ++ bytes).length < length then .payload status length (got ++ bytes)
    else .returned (decode status (got ++ bytes))
  | client => client

def write (count : ℕ) : Client → List UInt8 × Client
  | .sending rest =>
    if rest.length ≤ count then (rest, .header []) else (rest.take count, .sending (rest.drop count))
  | client => ([], client)

def isReturned : Client → Bool
  | .returned _ => true
  | _ => false

end Client

/-! ## A link -/

/-- A client and the server, with the bytes under way, all requests the server has handed out,
    and the answer the engine gave on this connection. -/
structure Link where
  client : Client
  toServer : List UInt8
  toClient : List UInt8
  server : UnixControlServer
  emitted : List LocalRequest
  given : Option Answer

inductive LinkStep where
  | write (count : ℕ)
  | read (count : ℕ)
  /-- The server polls its connections. Before each read of at most `4096` bytes the client may
      write; `0` bytes written stands for a write that would block. -/
  | poll (incoming : List Bool) (chunks : List (ℕ × ℕ)) (written : ℕ) (others : ℕ → StreamIo)
  | begin (connection : ℕ) (refusal : Option String)
  | answer (connection : ℕ) (answer : Answer)

namespace Link

def connection (s : Link) (id : ℕ) : Option Connection := KeyedList.get s.server.connections id

def written (client : Client) (toServer : List UInt8) (count : ℕ) : Option Connection → Client × List UInt8
  | none => (if client.wanted = 0 ∧ !client.isReturned then .returned (.error .io) else client, toServer)
  | some _ => ((client.write count).2, toServer ++ (client.write count).1)

/-- The client reads some of what has arrived; without any of it, it learns of a closed connection. -/
def received (maxResponse : ℕ) (client : Client) (toClient : List UInt8) (count : ℕ) (c : Option Connection) :
    Client × List UInt8 :=
  if client.wanted = 0 then (client, toClient)
  else if toClient = [] then (if c.isNone then .returned (.error .io) else client, toClient)
  else if min count client.wanted = 0 then (client, toClient)
  else (client.receive maxResponse (toClient.take (min count client.wanted)), toClient.drop (min count client.wanted))

def clientWrite (id : ℕ) (s : Link) (count : ℕ) : Link :=
  let result := written s.client s.toServer count (s.connection id)
  { s with client := result.1, toServer := result.2 }

def clientRead (id maxResponse : ℕ) (s : Link) (count : ℕ) : Link :=
  let result := received maxResponse s.client s.toClient count (s.connection id)
  { s with client := result.1, toClient := result.2 }

def pump : List (ℕ × ℕ) → Client → List UInt8 → List ReadResult × Client × List UInt8
  | [], client, pipe => ([], client, pipe)
  | (sent, count) :: chunks, client, pipe =>
    let written := client.write sent
    let pipe := pipe ++ written.1
    if pipe = [] then ([if client.isReturned then .read [] else .wouldBlock], written.2, pipe)
    else
      let size := min (max count 1) 4096
      let rest := pump chunks written.2 (pipe.drop size)
      (.read (pipe.take size) :: rest.1, rest.2)

def streamIo (client : Client) (toServer : List UInt8) (chunks : List (ℕ × ℕ)) (written : ℕ) :
    Option Connection → StreamIo × Client × List UInt8 × List UInt8
  | some ⟨_, .reading⟩ =>
    let pumped := pump chunks client toServer
    (⟨pumped.1, .wouldBlock⟩, pumped.2.1, pumped.2.2, [])
  | some ⟨_, .writing frame offset⟩ =>
    let bytes := (frame.drop offset).take written
    (⟨[], if client.isReturned then .failed else if bytes = [] then .wouldBlock else .written bytes.length⟩,
      client, toServer, if client.isReturned then [] else bytes)
  | _ => (⟨[], .wouldBlock⟩, client, toServer, [])

def poll (id : ℕ) (s : Link) (incoming : List Bool) (chunks : List (ℕ × ℕ)) (written : ℕ) (others : ℕ → StreamIo) :
    Link :=
  let io := streamIo s.client s.toServer chunks written (s.connection id)
  let polled := s.server.poll incoming fun j => if j = id then io.1 else others j
  { s with
    client := io.2.1
    toServer := io.2.2.1
    toClient := s.toClient ++ io.2.2.2
    server := polled.2
    emitted := s.emitted ++ polled.1 }

def begin (id : ℕ) (s : Link) (connection : ℕ) (refusal : Option String) : Link :=
  match s.connection connection with
  | some ⟨_, .dispatched⟩ =>
    match refusal with
    | none => { s with server := s.server.waitFor connection }
    | some error =>
      { s with
        server := s.server.reject connection error
        given := if connection = id then some (.failed error) else s.given }
  | _ => s

def answer (id : ℕ) (s : Link) (connection : ℕ) (answer : Answer) : Link :=
  match s.connection connection with
  | some ⟨_, .waiting none⟩ =>
    { s with
      server := s.server.answered connection answer
      given := if connection = id then some answer else s.given }
  | _ => s

def step (id maxResponse : ℕ) (s : Link) : LinkStep → Link
  | .write count => s.clientWrite id count
  | .read count => s.clientRead id maxResponse count
  | .poll incoming chunks written others => s.poll id incoming chunks written others
  | .begin connection refusal => s.begin id connection refusal
  | .answer connection answer => s.answer id connection answer

end Link
end Snolc.Control
