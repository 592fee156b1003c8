import Sylar.Http.Response
import Sylar.Lib.Numerals

/-! The texts of a request and of a response: `HttpRequest::dump` and
`HttpResponse::dump`. -/
namespace Sylar.Http

open Lib.Numerals

/-- `HttpMethodToString`. The numbers of the methods are their places in the map. -/
def httpMethodToString (m : HttpMethod) : Bytes :=
  ((httpMethodMap.find? fun e => e.1 = m).map (·.2)).getD
    (ascii ['<', 'u', 'n', 'k', 'n', 'o', 'w', 'n', '>'])

namespace HttpRequest

def crlf : Bytes := [13, 10]

def connectionKey : Bytes := ascii ['c', 'o', 'n', 'n', 'e', 'c', 't', 'i', 'o', 'n']

def contentLengthKey : Bytes :=
  ascii ['c', 'o', 'n', 't', 'e', 'n', 't', '-', 'l', 'e', 'n', 'g', 't', 'h']

def closeText (close : Bool) : Bytes :=
  if close then ascii ['c', 'l', 'o', 's', 'e']
  else ascii ['k', 'e', 'e', 'p', '-', 'a', 'l', 'i', 'v', 'e']

def dumpTarget (req : HttpRequest) : Bytes :=
  req.path ++ (if req.query.isEmpty then [] else ascii ['?']) ++ req.query ++
    (if req.fragment.isEmpty then [] else ascii ['#']) ++ req.fragment

def dumpLine (req : HttpRequest) : Bytes :=
  httpMethodToString req.method ++ ascii [' '] ++ req.dumpTarget ++
    ascii [' ', 'H', 'T', 'T', 'P', '/'] ++ decimal (req.version >>> 4) ++ ascii ['.'] ++
    decimal (req.version &&& 0x0f) ++ crlf

def dumpHeaders (req : HttpRequest) : Bytes :=
  req.headers.flatMap fun i =>
    if strcasecmpEq i.1 connectionKey then [] else i.1 ++ ascii [':'] ++ i.2 ++ crlf

def dumpHead (req : HttpRequest) : Bytes :=
  req.dumpLine ++ connectionKey ++ ascii [':', ' '] ++ closeText req.close ++ crlf ++
    req.dumpHeaders ++
    if req.body.isEmpty then crlf
    else contentLengthKey ++ ascii [':', ' '] ++ decimal req.body.length ++ crlf ++ crlf

def dump (req : HttpRequest) : Bytes := req.dumpHead ++ req.body

end HttpRequest

open HttpRequest (crlf connectionKey contentLengthKey closeText)

def httpStatusMap : List (Int × String) :=
  [(100, "Continue"), (101, "Switching Protocols"), (102, "Processing"), (200, "OK"),
   (201, "Created"), (202, "Accepted"), (203, "Non - Authoritative Information"),
   (204, "No Content"), (205, "Reset Content"), (206, "Partial Content"), (207, "Multi - Status"),
   (208, "Already Reported"), (226, "IM Used"), (300, "Multiple Choices"),
   (301, "Moved Permanently"), (302, "Found"), (303, "See Other"), (304, "Not Modified"),
   (305, "Use Proxy"), (307, "Temporary Redirect"), (308, "Permanent Redirect"),
   (400, "Bad Request"), (401, "Unauthorized"), (402, "Payment Required"), (403, "Forbidden"),
   (404, "Not Found"), (405, "Method Not Allowed"), (406, "Not Acceptable"),
   (407, "Proxy Authentication Required"), (408, "Request Timeout"), (409, "Conflict"),
   (410, "Gone"), (411, "Length Required"), (412, "Precondition Failed"),
   (413, "Payload Too Large"), (414, "URI Too Long"), (415, "Unsupported Media Type"),
   (416, "Range Not Satisfiable"), (417, "Expectation Failed"), (421, "Misdirected Request"),
   (422, "Unprocessable Entity"), (423, "Locked"), (424, "Failed Dependency"),
   (426, "Upgrade Required"), (428, "Precondition Required"), (429, "Too Many Requests"),
   (431, "Request Header Fields Too Large"), (451, "Unavailable For Legal Reasons"),
   (500, "Internal Server Error"), (501, "Not Implemented"), (502, "Bad Gateway"),
   (503, "Service Unavailable"), (504, "Gateway Timeout"), (505, "HTTP Version Not Supported"),
   (506, "Variant Also Negotiates"), (507, "Insufficient Storage"), (508, "Loop Detected"),
   (510, "Not Extended"), (511, "Network Authentication Required")]

def httpStatusToString (s : Int) : Bytes :=
  ascii (((httpStatusMap.find? fun e => e.1 = s).map (·.2)).getD "<unknown>").toList

namespace HttpResponse

def dumpReason (rsp : HttpResponse) : Bytes :=
  if rsp.reason.isEmpty then httpStatusToString rsp.status else rsp.reason

/-- The status is printed as an unsigned number. -/
def dumpLine (rsp : HttpResponse) : Bytes :=
  ascii ['H', 'T', 'T', 'P', '/'] ++ decimal (rsp.version >>> 4) ++ ascii ['.'] ++
    decimal (rsp.version &&& 0x0f) ++ ascii [' '] ++ decimal (rsp.status % 2 ^ 32).toNat ++
    ascii [' '] ++ rsp.dumpReason ++ crlf

def dumpHeaders (rsp : HttpResponse) : Bytes :=
  rsp.headers.flatMap fun i =>
    if strcasecmpEq i.1 connectionKey then [] else i.1 ++ ascii [':', ' '] ++ i.2 ++ crlf

def dumpHead (rsp : HttpResponse) : Bytes :=
  rsp.dumpLine ++ rsp.dumpHeaders ++ connectionKey ++ ascii [':', ' '] ++ closeText rsp.close ++
    crlf ++
    if rsp.body.isEmpty then crlf
    else contentLengthKey ++ ascii [':', ' '] ++ decimal rsp.body.length ++ crlf ++ crlf

def dump (rsp : HttpResponse) : Bytes := rsp.dumpHead ++ rsp.body

end HttpResponse

/-- The headers that a text has besides those of what it is the text of. -/
def addedHeaders (close : Bool) (body : Bytes) : Headers :=
  (connectionKey, closeText close) ::
    if body.isEmpty then [] else [(contentLengthKey, decimal body.length)]

def HttpRequest.added (req : HttpRequest) : Headers := addedHeaders req.close req.body

def HttpResponse.added (rsp : HttpResponse) : Headers := addedHeaders rsp.close rsp.body

end Sylar.Http
