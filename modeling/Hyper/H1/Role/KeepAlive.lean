import Hyper.H1.Role.ServerParse
import Hyper.H1.Role.ClientParse

/-!
# The keep-alive flag of a parsed head (`Server::parse`, `Client::parse`)

Both roles start the flag at the version's default, true for HTTP/1.1 and false for HTTP/1.0,
and let every `Connection` line override it, in the sense of the flag it finds: a connection
that is kept alive so far is ended by a `close` token, and one that is not is revived by a
`keep-alive` token (`connectionStep`).  Whatever else the header loops do, the flag they return
is that fold over the `Connection` values in the order the lines came (`Server.readLines_keep_alive`,
`Client.readLines_keep_alive`).

What the fold computes is not a function of the tokens alone.  Read as a set of tokens, a head
that says `close` anywhere asks for the connection to end (`tokenKeepAlive`).  The fold agrees
with that on a single line, but a `close` line followed by a `keep-alive` line revives the
connection, and the same two lines in the other order end it; on HTTP/1.0 a single line
`keep-alive, close` keeps the connection, since the `close` of a line is only looked at when the
flag is set (`close_then_keep_alive_keeps_alive`).
-/

set_option autoImplicit false

namespace Hyper.H1

open headers HeaderName

/-- One `Connection` value's effect on the flag, in both roles. -/
def connectionStep (keep_alive : Bool) (value : List UInt8) : Bool :=
  if keep_alive then !connection_close ⟨value⟩ else connection_keep_alive ⟨value⟩

/-- The flag read off the tokens alone: no `close` anywhere, and on HTTP/1.0 a `keep-alive`
somewhere. -/
def tokenKeepAlive (is_http_11 : Bool) (values : List (List UInt8)) : Bool :=
  if values.any fun v ↦ connection_close ⟨v⟩ then false
  else is_http_11 || values.any fun v ↦ connection_keep_alive ⟨v⟩

namespace Server

/-- Of the arms of the header loop, only `CONNECTION` touches the flag. -/
theorem readHeader_keep_alive {is_http_11 : Bool} {s s' : Scan} {name : HeaderName}
    {value : HeaderValue} (h : readHeader is_http_11 s name value = .ok (some s')) :
    s'.keep_alive = if name = CONNECTION then connectionStep s.keep_alive value.bytes else s.keep_alive := by
  unfold readHeader at h
  by_cases hte : name = TRANSFER_ENCODING
  · rw [if_pos hte] at h
    subst hte
    unfold onTransferEncoding at h
    split_ifs at h <;> simp only [Except.map, Except.ok.injEq, Option.some.injEq, reduceCtorEq] at h <;>
      (subst h; rfl)
  rw [if_neg hte] at h
  by_cases hcl : name = CONTENT_LENGTH
  · rw [if_pos hcl] at h
    subst hcl
    rcases onContentLength_cases h with ⟨-, h'⟩ | ⟨-, len, -, ⟨-, h'⟩ | ⟨-, -, h'⟩⟩
    · cases h'
    · cases h'
    · obtain rfl := Option.some.inj h'
      rfl
  rw [if_neg hcl] at h
  by_cases hconn : name = CONNECTION
  · rw [if_pos hconn] at h
    obtain rfl := Option.some.inj (Except.ok.inj h)
    simp [hconn, connectionStep]
  · -- `EXPECT`, `UPGRADE` and the other names leave the flag
    rw [if_neg hconn] at h
    split_ifs at h <;> (obtain rfl := Option.some.inj (Except.ok.inj h); simp [hconn])

theorem readLine_keep_alive {is_http_11 : Bool} {s s' : Scan} {h : httparse.Header}
    (hline : readLine is_http_11 s h = .ok s') :
    s'.keep_alive = if h.isNamed CONNECTION then connectionStep s.keep_alive h.value else s.keep_alive := by
  unfold readLine at hline
  rcases hname : HeaderName.from_bytes h.name with _ | name
  · simp only [hname, reduceCtorEq] at hline
  rcases hread : readHeader is_http_11 s name ⟨h.value⟩ with e | o
  · simp only [hname, hread, reduceCtorEq] at hline
  have hnamed : h.isNamed CONNECTION = decide (name = CONNECTION) := by
    rw [Bool.eq_iff_iff, httparse.Header.isNamed_iff hname, decide_eq_true_iff]
  rw [hnamed]
  rcases o with _ | s''
  · -- a `continue` comes only from the `CONTENT_LENGTH` arm, and keeps the scan
    simp only [hname, hread, Except.ok.injEq] at hline
    subst hline
    rcases readHeader_cases hread with ⟨-, _, -, h'⟩ | ⟨rfl, -⟩ | ⟨-, -, _, h', -⟩
    · cases h'
    · have hne : CONTENT_LENGTH ≠ CONNECTION := by decide
      simp [hne]
    · cases h'
  · simp only [hname, hread, Except.ok.injEq] at hline
    subst hline
    simpa using readHeader_keep_alive hread

/-- **The flag a server reads** is the fold of `connectionStep` over the `Connection` values, from
the version's default. -/
theorem readLines_keep_alive {is_http_11 : Bool} {method : Method} {hs : List httparse.Header}
    {s : Scan} (hrun : readLines is_http_11 (Scan.init method is_http_11) hs = .ok s) :
    s.keep_alive = (fieldValues CONNECTION hs).foldl connectionStep is_http_11 := by
  have := List.foldlM_inv
    (fun pre s ↦ s.keep_alive = (fieldValues CONNECTION pre).foldl connectionStep is_http_11)
    (fun pre h s s' hinv hline ↦ by
      rw [readLine_keep_alive hline, fieldValues_concat, List.foldl_append, ← hinv]
      split_ifs <;> rfl)
    hs [] rfl hrun
  simpa using this

end Server

namespace Client

theorem readLine_keep_alive {acc acc' : Bool × HeaderMap} {h : httparse.Header}
    (hline : readLine acc h = .ok acc') :
    acc'.1 = if h.isNamed CONNECTION then connectionStep acc.1 h.value else acc.1 := by
  unfold readLine at hline
  rcases hname : HeaderName.from_bytes h.name with _ | name
  · simp only [hname, reduceCtorEq] at hline
  simp only [hname, Except.ok.injEq] at hline
  subst hline
  have hnamed : h.isNamed CONNECTION = decide (name = CONNECTION) := by
    rw [Bool.eq_iff_iff, httparse.Header.isNamed_iff hname, decide_eq_true_iff]
  rw [hnamed]
  by_cases hc : name = CONNECTION <;> simp [hc, connectionStep]

/-- **The flag a client reads**, before an upgrade turns it off, is the same fold. -/
theorem readLines_keep_alive {keep_alive keep_alive' : Bool} {hs : List httparse.Header}
    {m : HeaderMap} (hrun : readLines keep_alive hs = .ok (keep_alive', m)) :
    keep_alive' = (fieldValues CONNECTION hs).foldl connectionStep keep_alive := by
  have := List.foldlM_inv
    (fun pre (acc : Bool × HeaderMap) ↦ acc.1 = (fieldValues CONNECTION pre).foldl connectionStep keep_alive)
    (fun pre h acc acc' hinv hline ↦ by
      rw [readLine_keep_alive hline, fieldValues_concat, List.foldl_append, ← hinv]
      split_ifs <;> rfl)
    hs [] rfl hrun
  simpa using this

end Client

/-! ## Two `Connection` lines -/

/-- A field line `connection: v`. -/
def connectionLine (v : String) : httparse.Header := ⟨ascii "connection", ascii v⟩

/-- A parser that reads the whole buffer as a `GET /` with the given version and lines. -/
def linesParser (version : ℕ) (hs : List httparse.Header) : RequestParser := fun buf ↦
  .ok (.Complete buf.length ⟨ascii "GET", ascii "/", version, hs⟩)

/-- The flag of the message a server parses from an empty buffer with `linesParser`. -/
def serverKeepAlive (version : ℕ) (hs : List httparse.Header) : Option Bool :=
  match Server.parse (linesParser version hs) (fun path ↦ some ⟨path⟩) [] with
  | (.ok (some msg), _) => some msg.keep_alive
  | _ => none

theorem close_then_keep_alive_keeps_alive :
    serverKeepAlive 1 [connectionLine "close", connectionLine "keep-alive"] = some true ∧
    serverKeepAlive 1 [connectionLine "keep-alive", connectionLine "close"] = some false ∧
    serverKeepAlive 0 [connectionLine "keep-alive, close"] = some true ∧
    tokenKeepAlive true [ascii "close", ascii "keep-alive"] = false ∧
    tokenKeepAlive false [ascii "keep-alive, close"] = false := by
  refine ⟨?_, ?_, ?_, ?_, ?_⟩ <;> decide +kernel

end Hyper.H1
