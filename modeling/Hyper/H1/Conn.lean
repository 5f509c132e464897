import Hyper.H1.Io
import Hyper.H1.Role.ClientParse

/-!
# An HTTP/1 connection (`proto/h1/conn.rs`)

`Conn` drives one transport for one role: it reads heads and bodies, writes heads and bodies,
and decides, message by message, whether the connection is kept alive.  Its `State` has three
fields that carry that decision: `reading` and `writing`, where each side is in its message, and
`keep_alive`, whether the connection may start another message (`Busy` in one, `Idle` between
two, `Disabled` once either side asked to close).

The role is a `Transaction`: which side reads first, how it parses a head, how it encodes one,
and what it answers to a parse error.  `Transaction.server` and `Transaction.client` are
`Server` and `Client` of `Hyper.H1.Role`.

Each method of `Conn` is a function of the connection, with the transport's answers in its
`Transport`.  A panic (`unreachable!`, an unsupported version in `encode`) is `none`.  The
fields of `State` that only feed the header read timeout, header case and `ffi` callbacks, the
cached header map (a reused allocation) and the pending upgrade are left out.
-/

set_option autoImplicit false

namespace Hyper

/-- `Error::is_parse`. -/
def Error.is_parse : Error → Bool
  | .Parse _ => true
  | _ => false

namespace H1

/-! ## The state -/

/-- `KA`. -/
inductive KA where
  | Idle
  | Busy
  | Disabled
  deriving DecidableEq, Repr

/-- `Reading`. -/
inductive Reading where
  | Init
  | Continue (d : Decoder)
  | Body (d : Decoder)
  | KeepAlive
  | Closed
  deriving DecidableEq, Repr

/-- `Writing`. -/
inductive Writing where
  | Init
  | Body (e : Encoder)
  | KeepAlive
  | Closed
  deriving DecidableEq, Repr

/-- `State`, with the fields the connection's logic reads. -/
structure State where
  allow_half_close : Bool
  error : Option Error
  keep_alive : KA
  method : Option Method
  h09_responses : Bool
  notify_read : Bool
  reading : Reading
  writing : Writing
  version : Version

namespace State

/-- `State::close`. -/
def close (s : State) : State := { s with reading := .Closed, writing := .Closed, keep_alive := .Disabled }

/-- `State::close_read`. -/
def close_read (s : State) : State := { s with reading := .Closed, keep_alive := .Disabled }

/-- `State::close_write`. -/
def close_write (s : State) : State := { s with writing := .Closed, keep_alive := .Disabled }

/-- `State::wants_keep_alive`. -/
def wants_keep_alive (s : State) : Bool := s.keep_alive ≠ .Disabled

/-- `State::disable_keep_alive`. -/
def disable_keep_alive (s : State) : State := { s with keep_alive := .Disabled }

/-- `State::busy`: a disabled connection stays disabled. -/
def busy (s : State) : State := if s.keep_alive = .Disabled then s else { s with keep_alive := .Busy }

/-- `keep_alive &= enabled`. -/
def and_keep_alive (s : State) (enabled : Bool) : State :=
  if !enabled then { s with keep_alive := .Disabled } else s

/-- `State::is_idle`. -/
def is_idle (s : State) : Bool := s.keep_alive = .Idle

/-- `State::is_read_closed`. -/
def is_read_closed (s : State) : Bool := s.reading = .Closed

/-- `State::is_write_closed`. -/
def is_write_closed (s : State) : Bool := s.writing = .Closed

/-- `State::idle`: back to the start of a message, or closed if that is not allowed; a client
is told to poll again. -/
def idle (s : State) (should_read_first : Bool) : State :=
  let s := { s with method := none, keep_alive := .Idle }
  if s.is_idle then
    { s with reading := .Init, writing := .Init, notify_read := s.notify_read || !should_read_first }
  else s.close

/-- `State::try_keep_alive`: once both sides are done, go idle if the connection is busy, and
close it otherwise; close it when one side is done and the other closed. -/
def try_keep_alive (s : State) (should_read_first : Bool) : State :=
  match s.reading, s.writing with
  | .KeepAlive, .KeepAlive => if s.keep_alive = .Busy then s.idle should_read_first else s.close
  | .Closed, .KeepAlive => s.close
  | .KeepAlive, .Closed => s.close
  | _, _ => s

end State

/-! ## The role -/

/-- `Wants`: whether the message wants an upgrade, and whether it expects a `100 Continue`. -/
structure Wants where
  upgrade : Bool
  expect : Bool
  deriving DecidableEq, Repr

/-- What a connection asks of its role (`Http1Transaction`). -/
structure Transaction (In Out : Type) where
  is_server : Bool
  /-- `T::parse`. -/
  parse : ParseContext → List UInt8 → Except Parse (Option (ParsedMessage In)) × List UInt8
  /-- What a parsed message leaves in `req_method`. -/
  parsed_method : ParsedMessage In → Option Method → Option Method
  /-- `T::encode`, with `keep_alive` and `req_method`: the result and the bytes written;
  `none` is a panic. -/
  encode : MessageHead Out → Option BodyLength → Bool → Option Method →
    Option (Except User Encoder × List UInt8)
  /-- What an encoded message leaves in `req_method`. -/
  encoded_method : MessageHead Out → Option Method → Option Method
  /-- `T::on_error`. -/
  on_error : Error → Option (MessageHead Out)

namespace Transaction

variable {In Out : Type}

/-- `T::should_read_first`. -/
def should_read_first (T : Transaction In Out) : Bool := T.is_server

/-- `T::should_error_on_parse_eof`. -/
def should_error_on_parse_eof (T : Transaction In Out) : Bool := !T.is_server

/-- `MessageHead::default()` with a status. -/
def statusHead (status : StatusCode) : MessageHead StatusCode := ⟨.HTTP_11, status, MultiMap.empty⟩

/-- `Server::on_error`: a 4xx for the parse errors a client caused. -/
def server_on_error : Error → Option (MessageHead StatusCode)
  | .Parse .Method | .Parse (.Header _) | .Parse .Uri | .Parse .Version =>
    some (statusHead ⟨400, by decide⟩)
  | .Parse .TooLarge => some (statusHead ⟨431, by decide⟩)
  | .Parse .UriTooLong => some (statusHead ⟨414, by decide⟩)
  | _ => none

/-- `Server`: reads first, parses requests and encodes responses. -/
def server (parser : RequestParser) (uri_parse : UriParser)
    (canonical_reason : StatusCode → Option (List UInt8)) (date : List UInt8) :
    Transaction RequestLine StatusCode where
  is_server := true
  parse _ := Server.parse parser uri_parse
  parsed_method msg _ := some msg.head.subject.method
  encode head body keep_alive req_method :=
    Server.encode ⟨req_method, keep_alive⟩ canonical_reason date head body
  encoded_method _ m := m
  on_error := server_on_error

/-- `Client`: writes first, encodes requests and parses responses; it has nothing to answer to
a parse error. -/
def client (parser : ResponseParser) : Transaction StatusCode RequestLine where
  is_server := false
  parse ctx := Client.parse parser ctx
  parsed_method _ m := m
  encode head body _ _ := (Client.encode head body).map fun (encoder, bytes) ↦ (.ok encoder, bytes)
  encoded_method head _ := some head.subject.method
  on_error _ := none

end Transaction

/-! ## The connection -/

/-- `Conn`: the buffered transport and the state. -/
structure Conn (B : Type) where
  io : Buffered (EncodedBuf B)
  state : State

/-- `H2_PREFACE`. -/
def H2_PREFACE : List UInt8 := ascii "PRI * HTTP/2.0\r\n\r\nSM\r\n\r\n"

/-- The `100 Continue` written for a request that expects one. -/
def CONTINUE : List UInt8 := ascii "HTTP/1.1 100 Continue\r\n\r\n"

namespace Conn

variable {B : Type} [Buf B] {In Out : Type} (T : Transaction In Out)

/-- `Conn::new`. -/
def new (io : Transport) (strategy : WriteStrategy) : Conn B :=
  ⟨Buffered.new io strategy, ⟨false, none, .Busy, none, false, false, .Init, .Init, .HTTP_11⟩⟩

/-- `Conn::can_read_head`. -/
def can_read_head (c : Conn B) : Bool :=
  match c.state.reading with
  | .Init => if T.should_read_first then true else c.state.writing ≠ .Init
  | _ => false

/-- `Conn::can_read_body`. -/
def can_read_body (c : Conn B) : Bool :=
  match c.state.reading with
  | .Body _ | .Continue _ => true
  | _ => false

/-- `Conn::can_write_head`. -/
def can_write_head (c : Conn B) : Bool :=
  if !T.should_read_first && c.state.reading = .Closed then false
  else c.state.writing = .Init && c.io.can_headers_buf

/-- `Conn::can_write_body`. -/
def can_write_body (c : Conn B) : Bool :=
  match c.state.writing with
  | .Body _ => true
  | _ => false

/-- `Conn::can_buffer_body`. -/
def can_buffer_body (c : Conn B) : Bool := c.io.can_buffer

/-- `Conn::should_error_on_eof`: only a client, and only within a message. -/
def should_error_on_eof (c : Conn B) : Bool := T.should_error_on_parse_eof && !c.state.is_idle

/-- `Conn::has_h2_prefix`. -/
def has_h2_prefix (c : Conn B) : Bool := decide (24 ≤ c.io.read_buf.length) && c.io.read_buf.take 24 = H2_PREFACE

/-- `Conn::is_mid_message`. -/
def is_mid_message (c : Conn B) : Bool := !(c.state.reading = .Init && c.state.writing = .Init)

/-- `Conn::close_read`. -/
def close_read (c : Conn B) : Conn B := { c with state := c.state.close_read }

/-- `Conn::close_write`. -/
def close_write (c : Conn B) : Conn B := { c with state := c.state.close_write }

/-- `Conn::disable_keep_alive`: an idle connection is closed at once. -/
def disable_keep_alive (c : Conn B) : Conn B :=
  if c.state.is_idle then { c with state := c.state.close }
  else { c with state := c.state.disable_keep_alive }

/-- `Conn::maybe_notify`: when no message is in progress on the read side and none is being
written, look for bytes or the end of the stream, and tell the dispatcher to read again. -/
def maybe_notify (c : Conn B) : Conn B :=
  match c.state.reading, c.state.writing with
  | .Init, .Init | .Init, .KeepAlive | .Init, .Closed =>
    if !c.io.read_blocked then
      if c.io.read_buf = [] then
        match c.io.poll_read_from_io with
        | (.ready (.ok n), io) =>
          if n = 0 then
            -- the end of the stream
            if c.state.is_idle then { io, state := c.state.close } else { io, state := c.state.close_read }
          else { io, state := { c.state with notify_read := true } }
        | (.pending, io) => { c with io }
        | (.ready (.error e), io) =>
          { io, state := { c.state.close with error := some (.Io e), notify_read := true } }
      else { c with state := { c.state with notify_read := true } }
    else c
  | _, _ => c

/-- `Conn::try_keep_alive`. -/
def try_keep_alive (c : Conn B) : Conn B :=
  maybe_notify { c with state := c.state.try_keep_alive T.should_read_first }

/-- `fix_keep_alive`: without `Connection: keep-alive`, an HTTP/1.0 message ends the connection,
and an HTTP/1.1 one that wants it kept alive says so. -/
def fix_keep_alive (s : State) (head : MessageHead Out) : State × MessageHead Out :=
  let outgoing_is_keep_alive :=
    match head.headers.getAll HeaderName.CONNECTION with
    | v :: _ => headers.connection_keep_alive v
    | [] => false
  if !outgoing_is_keep_alive then
    match head.version with
    | .HTTP_10 => (s.disable_keep_alive, head)
    | .HTTP_11 =>
      if s.wants_keep_alive then
        (s, { head with
          headers := head.headers.insert HeaderName.CONNECTION (HeaderValue.from_static "keep-alive") })
      else (s, head)
    | _ => (s, head)
  else (s, head)

/-- `enforce_version`: to an HTTP/1.0 peer, speak HTTP/1.0. -/
def enforce_version (s : State) (head : MessageHead Out) : State × MessageHead Out :=
  if s.version = .HTTP_10 then
    let (s, head) := fix_keep_alive s head
    (s, { head with version := .HTTP_10 })
  else (s, head)

/-- `Conn::encode_head`: the role writes the head into `headers_buf`; on an error the connection
stops writing. -/
def encode_head (c : Conn B) (head : MessageHead Out) (body : Option BodyLength) :
    Option (Option Encoder × Conn B) :=
  let s := if !T.should_read_first then c.state.busy else c.state
  let (s, head) := enforce_version s head
  (T.encode head body s.wants_keep_alive s.method).map fun (res, bytes) ↦
    let io := c.io.headers_buf bytes
    let s := { s with method := T.encoded_method head s.method }
    match res with
    | .ok encoder => (some encoder, { io, state := s })
    | .error err => (none, { io, state := { s with error := some (.User err), writing := .Closed } })

/-- `Conn::write_head`. -/
def write_head (c : Conn B) (head : MessageHead Out) (body : Option BodyLength) : Option (Conn B) :=
  (encode_head T c head body).map fun
    | (some encoder, c) =>
      { c with state := { c.state with
        writing := if !encoder.is_eof then .Body encoder else if encoder.is_last then .Closed
          else .KeepAlive } }
    | (none, c) => c

/-- `Conn::write_full_msg`: the head for a body of known length, then the whole body at once. -/
def write_full_msg (c : Conn B) (head : MessageHead Out) (body : B) : Option (Conn B) :=
  (encode_head T c head (some (.Known (Buf.remaining body)))).map fun
    | (some encoder, c) =>
      let c := if !encoder.is_eof then { c with io := c.io.buffer (encoder.danger_full_buf body) } else c
      { c with state := { c.state with writing := if encoder.is_last then .Closed else .KeepAlive } }
    | (none, c) => c

/-- `Conn::write_body`; `none` is the `unreachable!` outside a body. -/
def write_body (c : Conn B) (chunk : B) : Option (Conn B) :=
  match c.state.writing with
  | .Body encoder =>
    let (buf, encoder) := encoder.encode chunk
    let io := c.io.buffer buf
    some { io, state := { c.state with
      writing := if encoder.is_eof then (if encoder.is_last then .Closed else .KeepAlive)
        else .Body encoder } }
  | _ => none

/-- `Conn::write_body_and_end`; `none` is the `unreachable!` outside a body. -/
def write_body_and_end (c : Conn B) (chunk : B) : Option (Conn B) :=
  match c.state.writing with
  | .Body encoder =>
    let (buf, can_keep_alive) := encoder.encode_and_end chunk
    some ⟨c.io.buffer buf, { c.state with writing := if can_keep_alive then .KeepAlive else .Closed }⟩
  | _ => none

/-- `Conn::end_body`: a length still owed is the body-write-aborted error. -/
def end_body (c : Conn B) : Except Error Unit × Conn B :=
  match c.state.writing with
  | .Body encoder =>
    match (encoder.end : Except NotEof (Option (EncodedBuf B))) with
    | .ok last =>
      let io := match last with
        | some buf => c.io.buffer buf
        | none => c.io
      (.ok (), { io, state := { c.state with
        writing := if encoder.is_last || encoder.is_close_delimited then .Closed else .KeepAlive } })
    | .error _ => (.error (.User .Body), { c with state := { c.state with writing := .Closed } })
  | _ => (.ok (), c)

/-- `Conn::on_parse_error`: a server that has written nothing answers with the role's error
response; a buffered HTTP/2 preface is reported instead. -/
def on_parse_error (c : Conn B) (err : Error) : Option (Except Error Unit × Conn B) :=
  match c.state.writing with
  | .Init =>
    if c.has_h2_prefix then some (.error (.Parse .VersionH2), c)
    else
      match T.on_error err with
      | some msg =>
        (write_head T c msg none).map fun c ↦ (.ok (), { c with state := { c.state with error := some err } })
      | none => some (.error err, c)
  | _ => some (.error err, c)

/-- `Conn::on_read_head_error`: whether the stream ended between messages decides between an
error and a clean end. -/
def on_read_head_error (c : Conn B) (e : Error) :
    Option (Poll (Option (Except Error (MessageHead In × DecodedLength × Wants))) × Conn B) :=
  let must_error := should_error_on_eof T c
  let c := c.close_read
  let c := { c with io := c.io.consume_leading_lines }
  let was_mid_parse := e.is_parse || c.io.read_buf ≠ []
  if was_mid_parse || must_error then
    (on_parse_error T c e).map fun
      | (.ok (), c) => (.pending, c)
      | (.error e, c) => (.ready (some (.error e)), c)
  else some (.ready none, c.close_write)

/-- `Conn::poll_read_head`: parse a head, and set up the read side for its body. -/
def poll_read_head (c : Conn B) :
    Option (Poll (Option (Except Error (MessageHead In × DecodedLength × Wants))) × Conn B) :=
  match c.io.parse (T.parse ⟨c.state.method, c.state.h09_responses⟩) with
  | (.pending, io) => some (.pending, { c with io })
  | (.ready (.error e), io) => on_read_head_error T { c with io } e
  | (.ready (.ok msg), io) =>
    let s := { c.state with method := T.parsed_method msg c.state.method, h09_responses := false }
    let s := (s.busy.and_keep_alive msg.keep_alive)
    let s := { s with version := msg.head.version }
    let wants : Wants := ⟨msg.wants_upgrade, false⟩
    if msg.decode = DecodedLength.ZERO then
      let c : Conn B := { io, state := { s with reading := .KeepAlive } }
      some (.ready (some (.ok (msg.head, msg.decode, wants))),
        if !T.should_read_first then try_keep_alive T c else c)
    else if msg.expect_continue then
      some (.ready (some (.ok (msg.head, msg.decode, { wants with expect := true }))),
        { io, state := { s with reading := .Continue (Decoder.new msg.decode) } })
    else
      some (.ready (some (.ok (msg.head, msg.decode, wants))),
        { io, state := { s with reading := .Body (Decoder.new msg.decode) } })

/-- The `Reading::Body` arm of `poll_read_body`: decode, and end the body when the decoder is at
its end or the stream is. -/
def readBody (c : Conn B) (d : Decoder) : Poll (Option (Except IoError (List UInt8))) × Conn B :=
  match Decoder.decode 64 d c.io with
  | (.pending, d, io) => (.pending, { io, state := { c.state with reading := .Body d } })
  | (.ready (.ok slice), d, io) =>
    let c : Conn B := { io, state := { c.state with reading := .Body d } }
    if d.is_eof then
      (.ready (if slice ≠ [] then some (.ok slice) else none),
        try_keep_alive T { c with state := { c.state with reading := .KeepAlive } })
    else if slice = [] then
      (.ready none, try_keep_alive T { c with state := { c.state with reading := .Closed } })
    else (.ready (some (.ok slice)), c)
  | (.ready (.error e), _, io) =>
    (.ready (some (.error e)), try_keep_alive T { io, state := { c.state with reading := .Closed } })

/-- `Conn::poll_read_body`: a request that expects a `100 Continue` gets one if no response has
been started; `none` is the `unreachable!` outside a body. -/
def poll_read_body (c : Conn B) : Option (Poll (Option (Except IoError (List UInt8))) × Conn B) :=
  match c.state.reading with
  | .Body d => some (readBody T c d)
  | .Continue d =>
    let io := if c.state.writing = .Init then c.io.headers_buf CONTINUE else c.io
    some (readBody T { io, state := { c.state with reading := .Body d } } d)
  | _ => none

/-- `Conn::force_io_read`: an error closes the connection. -/
def force_io_read (c : Conn B) : Poll (Except IoError ℕ) × Conn B :=
  match c.io.poll_read_from_io with
  | (.ready (.error e), io) => (.ready (.error e), { io, state := c.state.close })
  | (r, io) => (r, { c with io })

/-- `Conn::require_empty_read`: an idle client expects nothing but the end of the stream. -/
def require_empty_read (c : Conn B) : Poll (Except Error Unit) × Conn B :=
  if c.io.read_buf ≠ [] then (.ready (.error .UnexpectedMessage), c)
  else
    match force_io_read c with
    | (.pending, c) => (.pending, c)
    | (.ready (.error e), c) => (.ready (.error (.Io e)), c)
    | (.ready (.ok n), c) =>
      if n = 0 then
        -- `should_error_on_eof` needs the state before `close_read`
        ((.ready (if should_error_on_eof T c then .error .IncompleteMessage else .ok ())), c.close_read)
      else (.ready (.error .UnexpectedMessage), c)

/-- `Conn::mid_message_detect_eof`. -/
def mid_message_detect_eof (c : Conn B) : Poll (Except Error Unit) × Conn B :=
  if c.state.allow_half_close || c.io.read_buf ≠ [] then (.pending, c)
  else
    match force_io_read c with
    | (.pending, c) => (.pending, c)
    | (.ready (.error e), c) => (.ready (.error (.Io e)), c)
    | (.ready (.ok n), c) =>
      if n = 0 then (.ready (.error .IncompleteMessage), c.close_read) else (.ready (.ok ()), c)

/-- `Conn::poll_read_keep_alive`: watch the read side between messages. -/
def poll_read_keep_alive (c : Conn B) : Poll (Except Error Unit) × Conn B :=
  if c.state.is_read_closed then (.pending, c)
  else if c.is_mid_message then mid_message_detect_eof c
  else require_empty_read T c

variable [LawfulBuf B]

/-- `Conn::poll_flush`: a finished flush may let the connection go idle. -/
def poll_flush (c : Conn B) : Poll (Except IoError Unit) × Conn B :=
  match c.io.poll_flush with
  | (.ready (.ok ()), io) => (.ready (.ok ()), try_keep_alive T { c with io })
  | (r, io) => (r, { c with io })

end Conn

end H1

end Hyper
