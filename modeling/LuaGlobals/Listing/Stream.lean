import LuaGlobals.Listing.Reader

/-! # Streams of functions

A stream hands out the functions of a listing one at a time and can look at the first one, the
outermost function, without handing it out.

* `FunctionStream.next` hands out the next function.
* `FunctionStream.peekOutermost` looks at the outermost function.
-/

namespace LuaGlobals

/-- The state of a stream of functions. -/
structure FunctionStream where
  /-- The lines still to be read. -/
  reader : LineReader
  /-- The first function, once it was read. -/
  outermost : Option FunctionListing
  /-- A function that was read and not yet handed out. -/
  buffered : Option FunctionListing
  /-- Whether a function or the end of the listing was reached. -/
  started : Bool
deriving DecidableEq, Repr

namespace FunctionStream

/-- A stream before the first line of a reader. -/
def ofReader (reader : LineReader) : FunctionStream :=
  { reader, outermost := none, buffered := none, started := false }

/-- Reads the next function from the lines. -/
def read (stream : FunctionStream) :
    Except ListingError (Option FunctionListing) × FunctionStream :=
  match readFunction stream.reader with
  | (.error error, reader) => (.error error, { stream with reader })
  | (.ok none, reader) => (.ok none, { stream with reader, started := true })
  | (.ok (some listing), reader) =>
    let outermost := if stream.started then stream.outermost else some listing
    (.ok (some listing), { stream with reader, outermost, started := true })

/-- Hands out the next function; there is none at the end. -/
def next (stream : FunctionStream) :
    Except ListingError (Option FunctionListing) × FunctionStream :=
  match stream.buffered with
  | some listing => (.ok (some listing), { stream with buffered := none })
  | none => stream.read

/-- Looks at the outermost function; there is none in an empty listing. -/
def peekOutermost (stream : FunctionStream) :
    Except ListingError (Option FunctionListing) × FunctionStream :=
  if stream.started then (.ok stream.outermost, stream)
  else
    match stream.read with
    | (.error error, stream) => (.error error, stream)
    | (.ok listing, stream) => (.ok stream.outermost, { stream with buffered := listing })

end FunctionStream

end LuaGlobals
