import HCServer.Http.RequestTable

/-! The machine `httpclient_parser` of httpclient_parser.rl, from the generated
httpclient_parser.rl.cc: it takes the head of a response or the header of one chunk. -/
namespace HCServer.Http
open Lib

inductive ClientAction
  | mark
  | startField
  | writeField
  | startValue
  | writeContentLen
  | writeConnectionClose
  | writeValue
  | reasonPhrase
  | statusCode
  | httpVersion
  | chunkSize
  | transChunked
  | done
  deriving DecidableEq, Repr

namespace ResponseTable

def token : List (Nat × Nat) :=
  [(33, 33), (35, 39), (42, 43), (45, 46), (48, 57), (65, 90), (94, 122), (124, 124), (126, 126)]

/-- Every byte that no earlier edge of the state takes. -/
def any : List (Nat × Nat) := [(0, 255)]

def rows1 : Table ClientAction := [
  (1, [act xdigit [.mark] 2, act [(72, 72)] [.mark] 8]),
  (2, [act [(10, 10)] [.chunkSize, .done] 120, act [(13, 13)] [.chunkSize] 3, go xdigit 2,
    act [(59, 59)] [.chunkSize] 4]),
  (3, [act [(10, 10)] [.done] 120]),
  (4, [act token [.startField] 5]),
  (5, [act [(10, 10)] [.writeField, .startValue, .writeValue, .done] 120,
    act [(13, 13)] [.writeField, .startValue, .writeValue] 3, go token 5,
    act [(59, 59)] [.writeField, .startValue, .writeValue] 4,
    act [(61, 61)] [.writeField, .startValue] 6]),
  (6, [act token [.startValue] 7]),
  (7, [act [(10, 10)] [.writeValue, .done] 120, act [(13, 13)] [.writeValue] 3, go token 7,
    act [(59, 59)] [.writeValue] 4]),
  (8, [go [(84, 84)] 9]),
  (9, [go [(84, 84)] 10]),
  (10, [go [(80, 80)] 11]),
  (11, [go [(47, 47)] 12]),
  (12, [go digit 13]),
  (13, [go [(46, 46)] 14, go digit 13]),
  (14, [go digit 15]),
  (15, [act [(32, 32)] [.httpVersion] 16, go digit 15]),
  (16, [act digit [.mark] 17]),
  (17, [act [(32, 32)] [.statusCode] 18, go digit 17]),
  (18, [act [(0, 9), (11, 255)] [.mark] 19]),
  (19, [act [(10, 10)] [.reasonPhrase] 20, act [(13, 13)] [.reasonPhrase] 24, go any 19]),
  (20, [act [(10, 10)] [.done] 120, go [(13, 13)] 3, act [(67, 67), (99, 99)] [.startField] 25,
    act [(84, 84), (116, 116)] [.startField] 44, act token [.startField] 21]),
  (21, [go token 21, act [(58, 58)] [.writeField] 22]),
  (22, [act [(9, 9), (11, 12), (32, 32)] [.startValue] 22,
    act [(10, 10)] [.startValue, .writeValue] 20, act [(13, 13)] [.startValue, .writeValue] 24,
    act any [.startValue] 23]),
  (23, [act [(10, 10)] [.writeValue] 20, act [(13, 13)] [.writeValue] 24, go any 23]),
  (24, [go [(10, 10)] 20]),
  (25, [act [(58, 58)] [.writeField] 22, go [(79, 79), (111, 111)] 26, go token 21]),
  (26, [act [(58, 58)] [.writeField] 22, go [(78, 78), (110, 110)] 27, go token 21]),
  (27, [act [(58, 58)] [.writeField] 22, go [(78, 78), (110, 110)] 28,
    go [(84, 84), (116, 116)] 101, go token 21]),
  (28, [act [(58, 58)] [.writeField] 22, go [(69, 69), (101, 101)] 29, go token 21]),
  (29, [act [(58, 58)] [.writeField] 22, go [(67, 67), (99, 99)] 30, go token 21]),
  (30, [act [(58, 58)] [.writeField] 22, go [(84, 84), (116, 116)] 31, go token 21]),
  (31, [act [(58, 58)] [.writeField] 22, go [(73, 73), (105, 105)] 32, go token 21]),
  (32, [act [(58, 58)] [.writeField] 22, go [(79, 79), (111, 111)] 33, go token 21]),
  (33, [act [(58, 58)] [.writeField] 22, go [(78, 78), (110, 110)] 34, go token 21]),
  (34, [go token 21, act [(58, 58)] [.writeField] 35]),
  (35, [act [(9, 9), (11, 12), (32, 32)] [.startValue] 35,
    act [(10, 10)] [.startValue, .writeValue] 36, act [(13, 13)] [.startValue, .writeValue] 95,
    act [(67, 67), (99, 99)] [.startValue] 96, act any [.startValue] 23]),
  (36, [go [(9, 9), (11, 12), (32, 32)] 37, act [(10, 10)] [.done] 122, go [(13, 13)] 89,
    act [(67, 67), (99, 99)] [.startField] 90, act [(84, 84), (116, 116)] [.startField] 44,
    act token [.startField] 21]),
  (37, [go [(9, 13), (32, 32)] 37, go [(67, 67), (99, 99)] 38]),
  (38, [go [(76, 76), (108, 108)] 39]),
  (39, [go [(79, 79), (111, 111)] 40]),
  (40, [go [(83, 83), (115, 115)] 41]),
  (41, [go [(69, 69), (101, 101)] 42]),
  (42, [go [(10, 10)] 43, go [(13, 13)] 88]),
  (43, [act [(10, 10)] [.writeConnectionClose, .done] 120,
    act [(13, 13)] [.writeConnectionClose] 3,
    act [(67, 67), (99, 99)] [.writeConnectionClose, .startField] 25,
    act [(84, 84), (116, 116)] [.writeConnectionClose, .startField] 44,
    act token [.writeConnectionClose, .startField] 21]),
  (44, [act [(58, 58)] [.writeField] 22, go [(82, 82), (114, 114)] 45, go token 21]),
  (45, [act [(58, 58)] [.writeField] 22, go [(65, 65), (97, 97)] 46, go token 21]),
  (46, [act [(58, 58)] [.writeField] 22, go [(78, 78), (110, 110)] 47, go token 21]),
  (47, [act [(58, 58)] [.writeField] 22, go [(83, 83), (115, 115)] 48, go token 21]),
  (48, [act [(58, 58)] [.writeField] 22, go [(70, 70), (102, 102)] 49, go token 21]),
  (49, [act [(58, 58)] [.writeField] 22, go [(69, 69), (101, 101)] 50, go token 21]),
  (50, [act [(58, 58)] [.writeField] 22, go [(82, 82), (114, 114)] 51, go token 21]),
  (51, [go [(45, 45)] 52, act [(58, 58)] [.writeField] 22, go token 21]),
  (52, [act [(58, 58)] [.writeField] 22, go [(69, 69), (101, 101)] 53, go token 21]),
  (53, [act [(58, 58)] [.writeField] 22, go [(78, 78), (110, 110)] 54, go token 21]),
  (54, [act [(58, 58)] [.writeField] 22, go [(67, 67), (99, 99)] 55, go token 21]),
  (55, [act [(58, 58)] [.writeField] 22, go [(79, 79), (111, 111)] 56, go token 21]),
  (56, [act [(58, 58)] [.writeField] 22, go [(68, 68), (100, 100)] 57, go token 21]),
  (57, [act [(58, 58)] [.writeField] 22, go [(73, 73), (105, 105)] 58, go token 21]),
  (58, [act [(58, 58)] [.writeField] 22, go [(78, 78), (110, 110)] 59, go token 21]),
  (59, [act [(58, 58)] [.writeField] 22, go [(71, 71), (103, 103)] 60, go token 21]),
  (60, [go token 21, act [(58, 58)] [.writeField] 61]),
  (61, [act [(9, 9), (11, 12), (32, 32)] [.startValue] 61,
    act [(10, 10)] [.startValue, .writeValue] 62, act [(13, 13)] [.startValue, .writeValue] 80,
    act [(67, 67), (99, 99)] [.startValue] 81, act any [.startValue] 23]),
  (62, [go [(9, 9), (11, 12), (32, 32)] 63, act [(10, 10)] [.done] 121, go [(13, 13)] 72,
    act [(67, 67), (99, 99)] [.startValue, .startField] 73,
    act [(84, 84), (116, 116)] [.startField] 44, act token [.startField] 21])]

def rows2 : Table ClientAction := [
  (63, [go [(9, 13), (32, 32)] 63, act [(67, 67), (99, 99)] [.startValue] 64]),
  (64, [go [(72, 72), (104, 104)] 65]),
  (65, [go [(85, 85), (117, 117)] 66]),
  (66, [go [(78, 78), (110, 110)] 67]),
  (67, [go [(75, 75), (107, 107)] 68]),
  (68, [go [(69, 69), (101, 101)] 69]),
  (69, [go [(68, 68), (100, 100)] 70]),
  (70, [act [(10, 10)] [.writeValue, .transChunked] 20, act [(13, 13)] [.writeValue] 71]),
  (71, [act [(10, 10)] [.transChunked] 20]),
  (72, [go [(9, 9), (11, 13), (32, 32)] 63, act [(10, 10)] [.done] 121,
    act [(67, 67), (99, 99)] [.startValue] 64]),
  (73, [act [(58, 58)] [.writeField] 22, go [(72, 72), (104, 104)] 74,
    go [(79, 79), (111, 111)] 26, go token 21]),
  (74, [act [(58, 58)] [.writeField] 22, go [(85, 85), (117, 117)] 75, go token 21]),
  (75, [act [(58, 58)] [.writeField] 22, go [(78, 78), (110, 110)] 76, go token 21]),
  (76, [act [(58, 58)] [.writeField] 22, go [(75, 75), (107, 107)] 77, go token 21]),
  (77, [act [(58, 58)] [.writeField] 22, go [(69, 69), (101, 101)] 78, go token 21]),
  (78, [act [(58, 58)] [.writeField] 22, go [(68, 68), (100, 100)] 79, go token 21]),
  (79, [act [(10, 10)] [.writeValue, .transChunked] 20, act [(13, 13)] [.writeValue] 71,
    go token 21, act [(58, 58)] [.writeField] 22]),
  (80, [go [(9, 9), (11, 13), (32, 32)] 63, go [(10, 10)] 62,
    act [(67, 67), (99, 99)] [.startValue] 64]),
  (81, [act [(10, 10)] [.writeValue] 20, act [(13, 13)] [.writeValue] 24,
    go [(72, 72), (104, 104)] 82, go any 23]),
  (82, [act [(10, 10)] [.writeValue] 20, act [(13, 13)] [.writeValue] 24,
    go [(85, 85), (117, 117)] 83, go any 23]),
  (83, [act [(10, 10)] [.writeValue] 20, act [(13, 13)] [.writeValue] 24,
    go [(78, 78), (110, 110)] 84, go any 23]),
  (84, [act [(10, 10)] [.writeValue] 20, act [(13, 13)] [.writeValue] 24,
    go [(75, 75), (107, 107)] 85, go any 23]),
  (85, [act [(10, 10)] [.writeValue] 20, act [(13, 13)] [.writeValue] 24,
    go [(69, 69), (101, 101)] 86, go any 23]),
  (86, [act [(10, 10)] [.writeValue] 20, act [(13, 13)] [.writeValue] 24,
    go [(68, 68), (100, 100)] 87, go any 23]),
  (87, [act [(10, 10)] [.writeValue, .transChunked] 20, act [(13, 13)] [.writeValue] 71,
    go any 23]),
  (88, [go [(10, 10)] 43]),
  (89, [go [(9, 9), (11, 13), (32, 32)] 37, act [(10, 10)] [.done] 122,
    go [(67, 67), (99, 99)] 38]),
  (90, [act [(58, 58)] [.writeField] 22, go [(76, 76), (108, 108)] 91,
    go [(79, 79), (111, 111)] 26, go token 21]),
  (91, [act [(58, 58)] [.writeField] 22, go [(79, 79), (111, 111)] 92, go token 21]),
  (92, [act [(58, 58)] [.writeField] 22, go [(83, 83), (115, 115)] 93, go token 21]),
  (93, [act [(58, 58)] [.writeField] 22, go [(69, 69), (101, 101)] 94, go token 21]),
  (94, [go [(10, 10)] 43, go [(13, 13)] 88, go token 21, act [(58, 58)] [.writeField] 22]),
  (95, [go [(9, 9), (11, 13), (32, 32)] 37, go [(10, 10)] 36, go [(67, 67), (99, 99)] 38]),
  (96, [act [(10, 10)] [.writeValue] 20, act [(13, 13)] [.writeValue] 24,
    go [(76, 76), (108, 108)] 97, go any 23]),
  (97, [act [(10, 10)] [.writeValue] 20, act [(13, 13)] [.writeValue] 24,
    go [(79, 79), (111, 111)] 98, go any 23]),
  (98, [act [(10, 10)] [.writeValue] 20, act [(13, 13)] [.writeValue] 24,
    go [(83, 83), (115, 115)] 99, go any 23]),
  (99, [act [(10, 10)] [.writeValue] 20, act [(13, 13)] [.writeValue] 24,
    go [(69, 69), (101, 101)] 100, go any 23]),
  (100, [act [(10, 10)] [.writeValue] 43, act [(13, 13)] [.writeValue] 88, go any 23]),
  (101, [act [(58, 58)] [.writeField] 22, go [(69, 69), (101, 101)] 102, go token 21]),
  (102, [act [(58, 58)] [.writeField] 22, go [(78, 78), (110, 110)] 103, go token 21]),
  (103, [act [(58, 58)] [.writeField] 22, go [(84, 84), (116, 116)] 104, go token 21]),
  (104, [go [(45, 45)] 105, act [(58, 58)] [.writeField] 22, go token 21]),
  (105, [act [(58, 58)] [.writeField] 22, go [(76, 76), (108, 108)] 106, go token 21]),
  (106, [act [(58, 58)] [.writeField] 22, go [(69, 69), (101, 101)] 107, go token 21]),
  (107, [act [(58, 58)] [.writeField] 22, go [(78, 78), (110, 110)] 108, go token 21]),
  (108, [act [(58, 58)] [.writeField] 22, go [(71, 71), (103, 103)] 109, go token 21]),
  (109, [act [(58, 58)] [.writeField] 22, go [(84, 84), (116, 116)] 110, go token 21]),
  (110, [act [(58, 58)] [.writeField] 22, go [(72, 72), (104, 104)] 111, go token 21]),
  (111, [go token 21, act [(58, 58)] [.writeField] 112]),
  (112, [act [(9, 9), (11, 12), (32, 32)] [.startValue] 112,
    act [(10, 10)] [.startValue, .writeValue] 113, act [(13, 13)] [.startValue, .writeValue] 118,
    act digit [.startValue] 119, act any [.startValue] 23]),
  (113, [go [(9, 9), (11, 12), (32, 32)] 114, act [(10, 10)] [.done] 123, go [(13, 13)] 116,
    act digit [.startValue, .startField] 117, act [(67, 67), (99, 99)] [.startField] 25,
    act [(84, 84), (116, 116)] [.startField] 44, act token [.startField] 21]),
  (114, [go [(9, 13), (32, 32)] 114, act digit [.startValue] 115]),
  (115, [act [(10, 10)] [.writeContentLen, .writeValue] 20,
    act [(13, 13)] [.writeContentLen, .writeValue] 24, go digit 115]),
  (116, [go [(9, 9), (11, 13), (32, 32)] 114, act [(10, 10)] [.done] 123,
    act digit [.startValue] 115]),
  (117, [act [(10, 10)] [.writeContentLen, .writeValue] 20,
    act [(13, 13)] [.writeContentLen, .writeValue] 24, go digit 117,
    act [(58, 58)] [.writeField] 22, go token 21]),
  (118, [go [(9, 9), (11, 13), (32, 32)] 114, go [(10, 10)] 113, act digit [.startValue] 115]),
  (119, [act [(10, 10)] [.writeContentLen, .writeValue] 20,
    act [(13, 13)] [.writeContentLen, .writeValue] 24, go digit 119, go any 23]),
  (120, []),
  (121, [go [(9, 13), (32, 32)] 63, act [(67, 67), (99, 99)] [.startValue] 64]),
  (122, [go [(9, 13), (32, 32)] 37, go [(67, 67), (99, 99)] 38]),
  (123, [go [(9, 13), (32, 32)] 114, act digit [.startValue] 115])]

end ResponseTable

def httpclientParserStart : Nat := 1

def httpclientParserError : Nat := 0

def httpclientParserFirstFinal : Nat := 120

def httpclientParserTable : Table ClientAction := ResponseTable.rows1 ++ ResponseTable.rows2

/-- `done` leaves the loop with `fbreak`. -/
def httpclientParser : Transducer Nat UInt8 ClientAction where
  next := httpclientParserTable.next
  halts a := a == .done

end HCServer.Http
