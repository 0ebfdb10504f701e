import HCServer.Lib.Transducer

/-! The machine `http_parser` of http11_parser.rl: the states, byte ranges and actions of the
generated http11_parser.rl.cc, whose characters are signed, so that 128 to 255 stand for the
negative ones. A byte without an edge leads to the error state 0. -/
namespace HCServer.Http
open Lib

inductive Action
  | mark
  | startField
  | writeField
  | startValue
  | writeValue
  | requestMethod
  | requestUri
  | fragment
  | startQuery
  | queryString
  | httpVersion
  | requestPath
  | done
  | xml
  | json
  deriving DecidableEq, Repr

def go {A : Type} (ranges : List (Nat × Nat)) (target : Nat) : Edge A := ⟨ranges, [], target⟩

def act {A : Type} (ranges : List (Nat × Nat)) (acts : List A) (target : Nat) : Edge A :=
  ⟨ranges, acts, target⟩

def digit : List (Nat × Nat) := [(48, 57)]

def xdigit : List (Nat × Nat) := [(48, 57), (65, 70), (97, 102)]

namespace RequestTable

/-- `more_delims`, which are delimiters `when` the field `uri_relaxed` is set. -/
def moreDelims (uriRelaxed : Bool) : List (Nat × Nat) :=
  if uriRelaxed then [(94, 94), (123, 123), (125, 125)] else []

def methodChar : List (Nat × Nat) := [(48, 57), (65, 90)]

def schemeChar : List (Nat × Nat) := [(43, 43), (45, 46), (48, 57), (65, 90), (97, 122)]

def regName : List (Nat × Nat) :=
  [(33, 33), (36, 36), (38, 46), (48, 57), (59, 59), (61, 61), (65, 90), (95, 95), (97, 122),
    (126, 126)]

def userinfo : List (Nat × Nat) :=
  [(33, 33), (36, 36), (38, 46), (48, 59), (61, 61), (65, 90), (95, 95), (97, 122), (126, 126)]

def segmentNc : List (Nat × Nat) :=
  [(33, 33), (36, 36), (38, 46), (48, 57), (59, 59), (61, 61), (64, 90), (95, 95), (97, 122),
    (126, 126)]

def pchar : List (Nat × Nat) :=
  [(33, 33), (36, 36), (38, 46), (48, 59), (61, 61), (64, 90), (95, 95), (97, 122), (126, 126),
    (128, 255)]

def pathChar : List (Nat × Nat) :=
  [(33, 33), (36, 36), (38, 59), (61, 61), (64, 90), (95, 95), (97, 122), (126, 126), (128, 255)]

def queryChar : List (Nat × Nat) :=
  [(33, 33), (36, 36), (38, 59), (61, 61), (63, 90), (95, 95), (97, 122), (126, 126), (128, 255)]

def fieldChar : List (Nat × Nat) :=
  [(1, 8), (10, 31), (33, 33), (35, 39), (42, 43), (45, 46), (48, 57), (65, 90), (94, 122),
    (124, 124), (126, 126)]

def content : List (Nat × Nat) := [(1, 126), (128, 255)]

def rows1 (r : Bool) : Table Action := [
  (1, [act methodChar [.mark] 2, act [(60, 60)] [.mark] 194, act [(64, 64)] [.mark] 198]),
  (2, [act [(32, 32)] [.requestMethod] 3, go methodChar 175]),
  (3, [act [(32, 32)] [.mark, .requestPath, .requestUri] 4,
    act [(35, 35)] [.mark, .requestPath, .requestUri] 20, act [(37, 37)] [.mark] 24,
    act [(47, 47)] [.mark] 33, act [(63, 63)] [.mark, .requestPath] 29,
    act [(65, 90), (97, 122)] [.mark] 173, act (moreDelims r) [.mark] 19,
    act segmentNc [.mark] 19]),
  (4, [act [(72, 72)] [.mark] 5]),
  (5, [go [(84, 84)] 6]),
  (6, [go [(84, 84)] 7]),
  (7, [go [(80, 80)] 8]),
  (8, [go [(47, 47)] 9]),
  (9, [go [(49, 49)] 10]),
  (10, [go [(46, 46)] 11]),
  (11, [go [(48, 49)] 12]),
  (12, [act [(10, 10)] [.httpVersion] 13, act [(13, 13)] [.httpVersion] 17]),
  (13, [act [(10, 10)] [.startField, .done] 348, act [(13, 13)] [.startField] 18,
    act fieldChar [.startField] 14]),
  (14, [go fieldChar 14, act [(58, 58)] [.writeField] 15]),
  (15, [act [(9, 9), (32, 32)] [.startValue] 15, act [(10, 10)] [.startValue, .writeValue] 13,
    act [(13, 13)] [.startValue, .writeValue] 17, act content [.startValue] 16]),
  (16, [act [(10, 10)] [.writeValue] 13, act [(13, 13)] [.writeValue] 17, go content 16]),
  (17, [go [(10, 10)] 13]),
  (18, [act [(10, 10)] [.done] 348, act [(58, 58)] [.writeField] 15, go fieldChar 14]),
  (19, [act [(32, 32)] [.requestPath, .requestUri] 4, go segmentNc 19,
    act [(35, 35)] [.requestPath, .requestUri] 20, go [(37, 37)] 24, go [(47, 47)] 26,
    act [(63, 63)] [.requestPath] 29, go (moreDelims r) 19]),
  (20, [act [(32, 32)] [.mark, .fragment] 4, act queryChar [.mark] 21, act [(37, 37)] [.mark] 22,
    act (moreDelims r) [.mark] 21]),
  (21, [act [(32, 32)] [.fragment] 4, go queryChar 21, go [(37, 37)] 22, go (moreDelims r) 21]),
  (22, [go xdigit 23]),
  (23, [go xdigit 21]),
  (24, [go xdigit 25]),
  (25, [go xdigit 19]),
  (26, [act [(32, 32)] [.requestPath, .requestUri] 4, go pathChar 26,
    act [(35, 35)] [.requestPath, .requestUri] 20, go [(37, 37)] 27,
    act [(63, 63)] [.requestPath] 29, go (moreDelims r) 26]),
  (27, [go xdigit 28]),
  (28, [go xdigit 26]),
  (29, [act [(32, 32)] [.startQuery, .queryString, .requestUri] 4,
    act queryChar [.startQuery] 30, act [(35, 35)] [.startQuery, .queryString, .requestUri] 20,
    act [(37, 37)] [.startQuery] 31, act (moreDelims r) [.startQuery] 30]),
  (30, [act [(32, 32)] [.queryString, .requestUri] 4, go queryChar 30,
    act [(35, 35)] [.queryString, .requestUri] 20, go [(37, 37)] 31, go (moreDelims r) 30]),
  (31, [go xdigit 32]),
  (32, [go xdigit 30]),
  (33, [act [(32, 32)] [.requestPath, .requestUri] 4, go pchar 26,
    act [(35, 35)] [.requestPath, .requestUri] 20, go [(37, 37)] 27, go [(47, 47)] 34,
    act [(63, 63)] [.requestPath] 29, go (moreDelims r) 26]),
  (34, [act [(32, 32)] [.requestPath, .requestUri] 4, go regName 35,
    act [(35, 35)] [.requestPath, .requestUri] 20, go [(37, 37)] 36, go [(47, 47)] 26,
    go [(58, 58)] 38, act [(63, 63)] [.requestPath] 29, go [(64, 64)] 42, go [(91, 91)] 47,
    go (moreDelims r) 35]),
  (35, [act [(32, 32)] [.requestPath, .requestUri] 4, go regName 35,
    act [(35, 35)] [.requestPath, .requestUri] 20, go [(37, 37)] 36, go [(47, 47)] 26,
    go [(58, 58)] 38, act [(63, 63)] [.requestPath] 29, go [(64, 64)] 42, go (moreDelims r) 35]),
  (36, [go xdigit 37]),
  (37, [go xdigit 35]),
  (38, [act [(32, 32)] [.requestPath, .requestUri] 4,
    act [(35, 35)] [.requestPath, .requestUri] 20, go [(37, 37)] 40, go [(47, 47)] 26,
    go digit 38, act [(63, 63)] [.requestPath] 29, go [(64, 64)] 42, go (moreDelims r) 39,
    go userinfo 39]),
  (39, [go userinfo 39, go [(37, 37)] 40, go [(64, 64)] 42, go (moreDelims r) 39]),
  (40, [go xdigit 41]),
  (41, [go xdigit 39]),
  (42, [act [(32, 32)] [.requestPath, .requestUri] 4, go regName 43,
    act [(35, 35)] [.requestPath, .requestUri] 20, go [(37, 37)] 44, go [(47, 47)] 26,
    go [(58, 58)] 46, act [(63, 63)] [.requestPath] 29, go [(91, 91)] 47, go (moreDelims r) 43]),
  (43, [act [(32, 32)] [.requestPath, .requestUri] 4, go regName 43,
    act [(35, 35)] [.requestPath, .requestUri] 20, go [(37, 37)] 44, go [(47, 47)] 26,
    go [(58, 58)] 46, act [(63, 63)] [.requestPath] 29, go (moreDelims r) 43]),
  (44, [go xdigit 45]),
  (45, [go xdigit 43]),
  (46, [act [(32, 32)] [.requestPath, .requestUri] 4,
    act [(35, 35)] [.requestPath, .requestUri] 20, go [(47, 47)] 26, go digit 46,
    act [(63, 63)] [.requestPath] 29]),
  (47, [go [(6, 6)] 48, go xdigit 91, go [(58, 58)] 167, go [(118, 118)] 169]),
  (48, [go xdigit 49]),
  (49, [go xdigit 50, go [(58, 58)] 53]),
  (50, [go xdigit 51, go [(58, 58)] 53]),
  (51, [go xdigit 52, go [(58, 58)] 53]),
  (52, [go [(58, 58)] 53]),
  (53, [go [(48, 48), (51, 57)] 54, go [(49, 49)] 84, go [(50, 50)] 87,
    go [(65, 70), (97, 102)] 90]),
  (54, [go [(46, 46)] 55, go xdigit 77, go [(58, 58)] 80]),
  (55, [go [(48, 48), (51, 57)] 56, go [(49, 49)] 72, go [(50, 50)] 74]),
  (56, [go [(46, 46)] 57]),
  (57, [go [(48, 48), (51, 57)] 58, go [(49, 49)] 67, go [(50, 50)] 69]),
  (58, [go [(46, 46)] 59]),
  (59, [go [(48, 48), (51, 57)] 60, go [(49, 49)] 62, go [(50, 50)] 64]),
  (60, [go [(93, 93)] 61]),
  (61, [act [(32, 32)] [.requestPath, .requestUri] 4,
    act [(35, 35)] [.requestPath, .requestUri] 20, go [(47, 47)] 26, go [(58, 58)] 46,
    act [(63, 63)] [.requestPath] 29]),
  (62, [go digit 63, go [(93, 93)] 61]),
  (63, [go digit 60, go [(93, 93)] 61]),
  (64, [go [(48, 48)] 65, go [(53, 53)] 66, go [(93, 93)] 61]),
  (65, [go digit 60]),
  (66, [go [(48, 48)] 60]),
  (67, [go [(46, 46)] 59, go digit 68]),
  (68, [go [(46, 46)] 59, go digit 58]),
  (69, [go [(46, 46)] 59, go [(48, 48)] 70, go [(53, 53)] 71]),
  (70, [go digit 58]),
  (71, [go [(48, 48)] 58]),
  (72, [go [(46, 46)] 57, go digit 73]),
  (73, [go [(46, 46)] 57, go digit 56]),
  (74, [go [(46, 46)] 57, go [(48, 48)] 75, go [(53, 53)] 76]),
  (75, [go digit 56]),
  (76, [go [(48, 48)] 56]),
  (77, [go xdigit 78, go [(58, 58)] 80]),
  (78, [go xdigit 79, go [(58, 58)] 80]),
  (79, [go [(58, 58)] 80]),
  (80, [go xdigit 81]),
  (81, [go xdigit 82, go [(93, 93)] 61]),
  (82, [go xdigit 83, go [(93, 93)] 61]),
  (83, [go xdigit 60, go [(93, 93)] 61]),
  (84, [go [(46, 46)] 55, go digit 85, go [(58, 58)] 80, go [(65, 70), (97, 102)] 77]),
  (85, [go [(46, 46)] 55, go digit 86, go [(58, 58)] 80, go [(65, 70), (97, 102)] 78]),
  (86, [go [(46, 46)] 55, go xdigit 79, go [(58, 58)] 80]),
  (87, [go [(46, 46)] 55, go [(48, 48)] 88, go [(53, 53)] 89, go [(58, 58)] 80, go xdigit 77]),
  (88, [go digit 86, go [(58, 58)] 80, go [(65, 70), (97, 102)] 78]),
  (89, [go [(48, 48)] 86, go [(58, 58)] 80, go xdigit 78]),
  (90, [go xdigit 77, go [(58, 58)] 80])]

def rows2 (r : Bool) : Table Action := [
  (91, [go xdigit 92, go [(58, 58)] 95]),
  (92, [go xdigit 93, go [(58, 58)] 95]),
  (93, [go xdigit 94, go [(58, 58)] 95]),
  (94, [go [(58, 58)] 95]),
  (95, [go xdigit 96, go [(58, 58)] 166]),
  (96, [go xdigit 97, go [(58, 58)] 100]),
  (97, [go xdigit 98, go [(58, 58)] 100]),
  (98, [go xdigit 99, go [(58, 58)] 100]),
  (99, [go [(58, 58)] 100]),
  (100, [go xdigit 101, go [(58, 58)] 165]),
  (101, [go xdigit 102, go [(58, 58)] 105]),
  (102, [go xdigit 103, go [(58, 58)] 105]),
  (103, [go xdigit 104, go [(58, 58)] 105]),
  (104, [go [(58, 58)] 105]),
  (105, [go xdigit 106, go [(58, 58)] 164]),
  (106, [go xdigit 107, go [(58, 58)] 110]),
  (107, [go xdigit 108, go [(58, 58)] 110]),
  (108, [go xdigit 109, go [(58, 58)] 110]),
  (109, [go [(58, 58)] 110]),
  (110, [go xdigit 111, go [(58, 58)] 163]),
  (111, [go xdigit 112, go [(58, 58)] 115]),
  (112, [go xdigit 113, go [(58, 58)] 115]),
  (113, [go xdigit 114, go [(58, 58)] 115]),
  (114, [go [(58, 58)] 115]),
  (115, [go xdigit 116, go [(58, 58)] 151]),
  (116, [go xdigit 117, go [(58, 58)] 120]),
  (117, [go xdigit 118, go [(58, 58)] 120]),
  (118, [go xdigit 119, go [(58, 58)] 120]),
  (119, [go [(58, 58)] 120]),
  (120, [go xdigit 121, go [(58, 58)] 150]),
  (121, [go xdigit 122, go [(58, 58)] 125]),
  (122, [go xdigit 123, go [(58, 58)] 125]),
  (123, [go xdigit 124, go [(58, 58)] 125]),
  (124, [go [(58, 58)] 125]),
  (125, [go xdigit 121, go [(58, 58)] 126]),
  (126, [go [(2, 3)] 48, go [(48, 48), (51, 57)] 127, go [(49, 49)] 143, go [(50, 50)] 146,
    go [(65, 70), (97, 102)] 149, go [(93, 93)] 61]),
  (127, [go [(46, 46)] 55, go xdigit 128, go [(58, 58)] 131, go [(93, 93)] 61]),
  (128, [go xdigit 129, go [(58, 58)] 131, go [(93, 93)] 61]),
  (129, [go xdigit 130, go [(58, 58)] 131, go [(93, 93)] 61]),
  (130, [go [(58, 58)] 131, go [(93, 93)] 61]),
  (131, [go [(48, 48), (51, 57)] 132, go [(49, 49)] 136, go [(50, 50)] 139,
    go [(65, 70), (97, 102)] 142]),
  (132, [go [(46, 46)] 55, go xdigit 133, go [(58, 58)] 80, go [(93, 93)] 61]),
  (133, [go xdigit 134, go [(58, 58)] 80, go [(93, 93)] 61]),
  (134, [go xdigit 135, go [(58, 58)] 80, go [(93, 93)] 61]),
  (135, [go [(58, 58)] 80, go [(93, 93)] 61]),
  (136, [go [(46, 46)] 55, go digit 137, go [(58, 58)] 80, go [(65, 70), (97, 102)] 133,
    go [(93, 93)] 61]),
  (137, [go [(46, 46)] 55, go digit 138, go [(58, 58)] 80, go [(65, 70), (97, 102)] 134,
    go [(93, 93)] 61]),
  (138, [go [(46, 46)] 55, go xdigit 135, go [(58, 58)] 80, go [(93, 93)] 61]),
  (139, [go [(46, 46)] 55, go [(48, 48)] 140, go [(53, 53)] 141, go [(58, 58)] 80,
    go [(93, 93)] 61, go xdigit 133]),
  (140, [go digit 138, go [(58, 58)] 80, go [(65, 70), (97, 102)] 134, go [(93, 93)] 61]),
  (141, [go [(48, 48)] 138, go [(58, 58)] 80, go [(93, 93)] 61, go xdigit 134]),
  (142, [go xdigit 133, go [(58, 58)] 80, go [(93, 93)] 61]),
  (143, [go [(46, 46)] 55, go digit 144, go [(58, 58)] 131, go [(65, 70), (97, 102)] 128,
    go [(93, 93)] 61]),
  (144, [go [(46, 46)] 55, go digit 145, go [(58, 58)] 131, go [(65, 70), (97, 102)] 129,
    go [(93, 93)] 61]),
  (145, [go [(46, 46)] 55, go xdigit 130, go [(58, 58)] 131, go [(93, 93)] 61]),
  (146, [go [(46, 46)] 55, go [(48, 48)] 147, go [(53, 53)] 148, go [(58, 58)] 131,
    go [(93, 93)] 61, go xdigit 128]),
  (147, [go digit 145, go [(58, 58)] 131, go [(65, 70), (97, 102)] 129, go [(93, 93)] 61]),
  (148, [go [(48, 48)] 145, go [(58, 58)] 131, go [(93, 93)] 61, go xdigit 129]),
  (149, [go xdigit 128, go [(58, 58)] 131, go [(93, 93)] 61]),
  (150, [go [(2, 3)] 48, go [(48, 48), (51, 57)] 127, go [(49, 49)] 143, go [(50, 50)] 146,
    go [(65, 70), (97, 102)] 149]),
  (151, [go [(2, 3)] 48, go [(48, 48), (51, 57)] 152, go [(49, 49)] 156, go [(50, 50)] 159,
    go [(65, 70), (97, 102)] 162]),
  (152, [go [(46, 46)] 55, go xdigit 153, go [(58, 58)] 131]),
  (153, [go xdigit 154, go [(58, 58)] 131]),
  (154, [go xdigit 155, go [(58, 58)] 131]),
  (155, [go [(58, 58)] 131]),
  (156, [go [(46, 46)] 55, go digit 157, go [(58, 58)] 131, go [(65, 70), (97, 102)] 153]),
  (157, [go [(46, 46)] 55, go digit 158, go [(58, 58)] 131, go [(65, 70), (97, 102)] 154]),
  (158, [go [(46, 46)] 55, go xdigit 155, go [(58, 58)] 131]),
  (159, [go [(46, 46)] 55, go [(48, 48)] 160, go [(53, 53)] 161, go [(58, 58)] 131, go xdigit 153]),
  (160, [go digit 158, go [(58, 58)] 131, go [(65, 70), (97, 102)] 154]),
  (161, [go [(48, 48)] 158, go [(58, 58)] 131, go xdigit 154]),
  (162, [go xdigit 153, go [(58, 58)] 131]),
  (163, [go [(2, 3)] 48, go xdigit 49]),
  (164, [go [(2, 3)] 48]),
  (165, [go [(3, 3)] 48]),
  (166, [go [(4, 4)] 48]),
  (167, [go [(58, 58)] 168]),
  (168, [go [(2, 5)] 48, go [(48, 48), (51, 57)] 127, go [(49, 49)] 143, go [(50, 50)] 146,
    go [(65, 70), (97, 102)] 149, go [(93, 93)] 61]),
  (169, [go xdigit 170]),
  (170, [go [(46, 46)] 171, go xdigit 170]),
  (171, [go userinfo 172, go (moreDelims r) 172]),
  (172, [go userinfo 172, go [(93, 93)] 61, go (moreDelims r) 172]),
  (173, [act [(32, 32)] [.requestPath, .requestUri] 4,
    act [(35, 35)] [.requestPath, .requestUri] 20, go [(37, 37)] 24, go schemeChar 173,
    go [(47, 47)] 26, go [(58, 58)] 174, act [(63, 63)] [.requestPath] 29, go (moreDelims r) 19,
    go segmentNc 19]),
  (174, [act [(32, 32)] [.mark, .requestPath, .requestUri] 4, act pchar [.mark] 26,
    act [(35, 35)] [.mark, .requestPath, .requestUri] 20, act [(37, 37)] [.mark] 27,
    act [(47, 47)] [.mark] 33, act [(63, 63)] [.mark, .requestPath] 29,
    act (moreDelims r) [.mark] 26]),
  (175, [act [(32, 32)] [.requestMethod] 3, go methodChar 176]),
  (176, [act [(32, 32)] [.requestMethod] 3, go methodChar 177]),
  (177, [act [(32, 32)] [.requestMethod] 3, go methodChar 178]),
  (178, [act [(32, 32)] [.requestMethod] 3, go methodChar 179]),
  (179, [act [(32, 32)] [.requestMethod] 3, go methodChar 180]),
  (180, [act [(32, 32)] [.requestMethod] 3, go methodChar 181])]

def rows3 (r : Bool) : Table Action := [
  (181, [act [(32, 32)] [.requestMethod] 3, go methodChar 182]),
  (182, [act [(32, 32)] [.requestMethod] 3, go methodChar 183]),
  (183, [act [(32, 32)] [.requestMethod] 3, go methodChar 184]),
  (184, [act [(32, 32)] [.requestMethod] 3, go methodChar 185]),
  (185, [act [(32, 32)] [.requestMethod] 3, go methodChar 186]),
  (186, [act [(32, 32)] [.requestMethod] 3, go methodChar 187]),
  (187, [act [(32, 32)] [.requestMethod] 3, go methodChar 188]),
  (188, [act [(32, 32)] [.requestMethod] 3, go methodChar 189]),
  (189, [act [(32, 32)] [.requestMethod] 3, go methodChar 190]),
  (190, [act [(32, 32)] [.requestMethod] 3, go methodChar 191]),
  (191, [act [(32, 32)] [.requestMethod] 3, go methodChar 192]),
  (192, [act [(32, 32)] [.requestMethod] 3, go methodChar 193]),
  (193, [act [(32, 32)] [.requestMethod] 3]),
  (194, [go [(45, 46), (48, 57), (65, 90), (97, 122)] 195]),
  (195, [act [(9, 13), (32, 32), (47, 47), (62, 62)] [.requestPath] 196,
    go [(45, 46), (48, 57), (65, 90), (97, 122)] 195]),
  (196, [go [(0, 61), (63, 255)] 196, go [(62, 62)] 197]),
  (197, [act [(0, 0)] [.xml, .done] 349, go [(1, 61), (63, 255)] 196, go [(62, 62)] 197]),
  (198, [act [(32, 32)] [.requestPath] 199, go segmentNc 202, go [(37, 37)] 203,
    go [(47, 47)] 208, go (moreDelims r) 202]),
  (199, [act [(123, 123)] [.mark] 200]),
  (200, [go [(0, 124), (126, 255)] 200, go [(125, 125)] 201]),
  (201, [act [(0, 0)] [.json, .done] 349, go [(1, 124), (126, 255)] 200, go [(125, 125)] 201]),
  (202, [act [(32, 32)] [.requestPath] 199, go segmentNc 202, go [(37, 37)] 203,
    go [(47, 47)] 205, go (moreDelims r) 202]),
  (203, [go xdigit 204]),
  (204, [go xdigit 202]),
  (205, [act [(32, 32)] [.requestPath] 199, go pathChar 205, go [(37, 37)] 206,
    go (moreDelims r) 205]),
  (206, [go xdigit 207]),
  (207, [go xdigit 205]),
  (208, [act [(32, 32)] [.requestPath] 199, go pchar 205, go [(37, 37)] 206, go [(47, 47)] 209,
    go (moreDelims r) 205]),
  (209, [act [(32, 32)] [.requestPath] 199, go regName 210, go [(37, 37)] 211, go [(47, 47)] 205,
    go [(58, 58)] 213, go [(64, 64)] 217, go [(91, 91)] 222, go (moreDelims r) 210]),
  (210, [act [(32, 32)] [.requestPath] 199, go regName 210, go [(37, 37)] 211, go [(47, 47)] 205,
    go [(58, 58)] 213, go [(64, 64)] 217, go (moreDelims r) 210]),
  (211, [go xdigit 212]),
  (212, [go xdigit 210]),
  (213, [act [(32, 32)] [.requestPath] 199, go [(37, 37)] 215, go [(47, 47)] 205, go digit 213,
    go [(64, 64)] 217, go (moreDelims r) 214, go userinfo 214]),
  (214, [go userinfo 214, go [(37, 37)] 215, go [(64, 64)] 217, go (moreDelims r) 214]),
  (215, [go xdigit 216]),
  (216, [go xdigit 214]),
  (217, [act [(32, 32)] [.requestPath] 199, go regName 218, go [(37, 37)] 219, go [(47, 47)] 205,
    go [(58, 58)] 221, go [(91, 91)] 222, go (moreDelims r) 218]),
  (218, [act [(32, 32)] [.requestPath] 199, go regName 218, go [(37, 37)] 219, go [(47, 47)] 205,
    go [(58, 58)] 221, go (moreDelims r) 218]),
  (219, [go xdigit 220]),
  (220, [go xdigit 218]),
  (221, [act [(32, 32)] [.requestPath] 199, go [(47, 47)] 205, go digit 221]),
  (222, [go [(6, 6)] 223, go xdigit 266, go [(58, 58)] 342, go [(118, 118)] 344]),
  (223, [go xdigit 224]),
  (224, [go xdigit 225, go [(58, 58)] 228]),
  (225, [go xdigit 226, go [(58, 58)] 228]),
  (226, [go xdigit 227, go [(58, 58)] 228]),
  (227, [go [(58, 58)] 228]),
  (228, [go [(48, 48), (51, 57)] 229, go [(49, 49)] 259, go [(50, 50)] 262,
    go [(65, 70), (97, 102)] 265]),
  (229, [go [(46, 46)] 230, go xdigit 252, go [(58, 58)] 255]),
  (230, [go [(48, 48), (51, 57)] 231, go [(49, 49)] 247, go [(50, 50)] 249]),
  (231, [go [(46, 46)] 232]),
  (232, [go [(48, 48), (51, 57)] 233, go [(49, 49)] 242, go [(50, 50)] 244]),
  (233, [go [(46, 46)] 234]),
  (234, [go [(48, 48), (51, 57)] 235, go [(49, 49)] 237, go [(50, 50)] 239]),
  (235, [go [(93, 93)] 236]),
  (236, [act [(32, 32)] [.requestPath] 199, go [(47, 47)] 205, go [(58, 58)] 221]),
  (237, [go digit 238, go [(93, 93)] 236]),
  (238, [go digit 235, go [(93, 93)] 236]),
  (239, [go [(48, 48)] 240, go [(53, 53)] 241, go [(93, 93)] 236]),
  (240, [go digit 235]),
  (241, [go [(48, 48)] 235]),
  (242, [go [(46, 46)] 234, go digit 243]),
  (243, [go [(46, 46)] 234, go digit 233]),
  (244, [go [(46, 46)] 234, go [(48, 48)] 245, go [(53, 53)] 246]),
  (245, [go digit 233]),
  (246, [go [(48, 48)] 233]),
  (247, [go [(46, 46)] 232, go digit 248]),
  (248, [go [(46, 46)] 232, go digit 231]),
  (249, [go [(46, 46)] 232, go [(48, 48)] 250, go [(53, 53)] 251]),
  (250, [go digit 231]),
  (251, [go [(48, 48)] 231]),
  (252, [go xdigit 253, go [(58, 58)] 255]),
  (253, [go xdigit 254, go [(58, 58)] 255]),
  (254, [go [(58, 58)] 255]),
  (255, [go xdigit 256]),
  (256, [go xdigit 257, go [(93, 93)] 236]),
  (257, [go xdigit 258, go [(93, 93)] 236]),
  (258, [go xdigit 235, go [(93, 93)] 236]),
  (259, [go [(46, 46)] 230, go digit 260, go [(58, 58)] 255, go [(65, 70), (97, 102)] 252]),
  (260, [go [(46, 46)] 230, go digit 261, go [(58, 58)] 255, go [(65, 70), (97, 102)] 253]),
  (261, [go [(46, 46)] 230, go xdigit 254, go [(58, 58)] 255]),
  (262, [go [(46, 46)] 230, go [(48, 48)] 263, go [(53, 53)] 264, go [(58, 58)] 255,
    go xdigit 252]),
  (263, [go digit 261, go [(58, 58)] 255, go [(65, 70), (97, 102)] 253]),
  (264, [go [(48, 48)] 261, go [(58, 58)] 255, go xdigit 253]),
  (265, [go xdigit 252, go [(58, 58)] 255]),
  (266, [go xdigit 267, go [(58, 58)] 270]),
  (267, [go xdigit 268, go [(58, 58)] 270]),
  (268, [go xdigit 269, go [(58, 58)] 270]),
  (269, [go [(58, 58)] 270]),
  (270, [go xdigit 271, go [(58, 58)] 341])]

def rows4 (r : Bool) : Table Action := [
  (271, [go xdigit 272, go [(58, 58)] 275]),
  (272, [go xdigit 273, go [(58, 58)] 275]),
  (273, [go xdigit 274, go [(58, 58)] 275]),
  (274, [go [(58, 58)] 275]),
  (275, [go xdigit 276, go [(58, 58)] 340]),
  (276, [go xdigit 277, go [(58, 58)] 280]),
  (277, [go xdigit 278, go [(58, 58)] 280]),
  (278, [go xdigit 279, go [(58, 58)] 280]),
  (279, [go [(58, 58)] 280]),
  (280, [go xdigit 281, go [(58, 58)] 339]),
  (281, [go xdigit 282, go [(58, 58)] 285]),
  (282, [go xdigit 283, go [(58, 58)] 285]),
  (283, [go xdigit 284, go [(58, 58)] 285]),
  (284, [go [(58, 58)] 285]),
  (285, [go xdigit 286, go [(58, 58)] 338]),
  (286, [go xdigit 287, go [(58, 58)] 290]),
  (287, [go xdigit 288, go [(58, 58)] 290]),
  (288, [go xdigit 289, go [(58, 58)] 290]),
  (289, [go [(58, 58)] 290]),
  (290, [go xdigit 291, go [(58, 58)] 326]),
  (291, [go xdigit 292, go [(58, 58)] 295]),
  (292, [go xdigit 293, go [(58, 58)] 295]),
  (293, [go xdigit 294, go [(58, 58)] 295]),
  (294, [go [(58, 58)] 295]),
  (295, [go xdigit 296, go [(58, 58)] 325]),
  (296, [go xdigit 297, go [(58, 58)] 300]),
  (297, [go xdigit 298, go [(58, 58)] 300]),
  (298, [go xdigit 299, go [(58, 58)] 300]),
  (299, [go [(58, 58)] 300]),
  (300, [go xdigit 296, go [(58, 58)] 301]),
  (301, [go [(2, 3)] 223, go [(48, 48), (51, 57)] 302, go [(49, 49)] 318, go [(50, 50)] 321,
    go [(65, 70), (97, 102)] 324, go [(93, 93)] 236]),
  (302, [go [(46, 46)] 230, go xdigit 303, go [(58, 58)] 306, go [(93, 93)] 236]),
  (303, [go xdigit 304, go [(58, 58)] 306, go [(93, 93)] 236]),
  (304, [go xdigit 305, go [(58, 58)] 306, go [(93, 93)] 236]),
  (305, [go [(58, 58)] 306, go [(93, 93)] 236]),
  (306, [go [(48, 48), (51, 57)] 307, go [(49, 49)] 311, go [(50, 50)] 314,
    go [(65, 70), (97, 102)] 317]),
  (307, [go [(46, 46)] 230, go xdigit 308, go [(58, 58)] 255, go [(93, 93)] 236]),
  (308, [go xdigit 309, go [(58, 58)] 255, go [(93, 93)] 236]),
  (309, [go xdigit 310, go [(58, 58)] 255, go [(93, 93)] 236]),
  (310, [go [(58, 58)] 255, go [(93, 93)] 236]),
  (311, [go [(46, 46)] 230, go digit 312, go [(58, 58)] 255, go [(65, 70), (97, 102)] 308,
    go [(93, 93)] 236]),
  (312, [go [(46, 46)] 230, go digit 313, go [(58, 58)] 255, go [(65, 70), (97, 102)] 309,
    go [(93, 93)] 236]),
  (313, [go [(46, 46)] 230, go xdigit 310, go [(58, 58)] 255, go [(93, 93)] 236]),
  (314, [go [(46, 46)] 230, go [(48, 48)] 315, go [(53, 53)] 316, go [(58, 58)] 255,
    go [(93, 93)] 236, go xdigit 308]),
  (315, [go digit 313, go [(58, 58)] 255, go [(65, 70), (97, 102)] 309, go [(93, 93)] 236]),
  (316, [go [(48, 48)] 313, go [(58, 58)] 255, go [(93, 93)] 236, go xdigit 309]),
  (317, [go xdigit 308, go [(58, 58)] 255, go [(93, 93)] 236]),
  (318, [go [(46, 46)] 230, go digit 319, go [(58, 58)] 306, go [(65, 70), (97, 102)] 303,
    go [(93, 93)] 236]),
  (319, [go [(46, 46)] 230, go digit 320, go [(58, 58)] 306, go [(65, 70), (97, 102)] 304,
    go [(93, 93)] 236]),
  (320, [go [(46, 46)] 230, go xdigit 305, go [(58, 58)] 306, go [(93, 93)] 236]),
  (321, [go [(46, 46)] 230, go [(48, 48)] 322, go [(53, 53)] 323, go [(58, 58)] 306,
    go [(93, 93)] 236, go xdigit 303]),
  (322, [go digit 320, go [(58, 58)] 306, go [(65, 70), (97, 102)] 304, go [(93, 93)] 236]),
  (323, [go [(48, 48)] 320, go [(58, 58)] 306, go [(93, 93)] 236, go xdigit 304]),
  (324, [go xdigit 303, go [(58, 58)] 306, go [(93, 93)] 236]),
  (325, [go [(2, 3)] 223, go [(48, 48), (51, 57)] 302, go [(49, 49)] 318, go [(50, 50)] 321,
    go [(65, 70), (97, 102)] 324]),
  (326, [go [(2, 3)] 223, go [(48, 48), (51, 57)] 327, go [(49, 49)] 331, go [(50, 50)] 334,
    go [(65, 70), (97, 102)] 337]),
  (327, [go [(46, 46)] 230, go xdigit 328, go [(58, 58)] 306]),
  (328, [go xdigit 329, go [(58, 58)] 306]),
  (329, [go xdigit 330, go [(58, 58)] 306]),
  (330, [go [(58, 58)] 306]),
  (331, [go [(46, 46)] 230, go digit 332, go [(58, 58)] 306, go [(65, 70), (97, 102)] 328]),
  (332, [go [(46, 46)] 230, go digit 333, go [(58, 58)] 306, go [(65, 70), (97, 102)] 329]),
  (333, [go [(46, 46)] 230, go xdigit 330, go [(58, 58)] 306]),
  (334, [go [(46, 46)] 230, go [(48, 48)] 335, go [(53, 53)] 336, go [(58, 58)] 306,
    go xdigit 328]),
  (335, [go digit 333, go [(58, 58)] 306, go [(65, 70), (97, 102)] 329]),
  (336, [go [(48, 48)] 333, go [(58, 58)] 306, go xdigit 329]),
  (337, [go xdigit 328, go [(58, 58)] 306]),
  (338, [go [(2, 3)] 223, go xdigit 224]),
  (339, [go [(2, 3)] 223]),
  (340, [go [(3, 3)] 223]),
  (341, [go [(4, 4)] 223]),
  (342, [go [(58, 58)] 343]),
  (343, [go [(2, 5)] 223, go [(48, 48), (51, 57)] 302, go [(49, 49)] 318, go [(50, 50)] 321,
    go [(65, 70), (97, 102)] 324, go [(93, 93)] 236]),
  (344, [go xdigit 345]),
  (345, [go [(46, 46)] 346, go xdigit 345]),
  (346, [go userinfo 347, go (moreDelims r) 347]),
  (347, [go userinfo 347, go [(93, 93)] 236, go (moreDelims r) 347]),
  (348, [go fieldChar 14, act [(58, 58)] [.writeField] 15]),
  (349, [])]

end RequestTable

def httpParserStart : Nat := 1

def httpParserError : Nat := 0

def httpParserFirstFinal : Nat := 348

def httpParserTable (uriRelaxed : Bool) : Table Action :=
  RequestTable.rows1 uriRelaxed ++ RequestTable.rows2 uriRelaxed ++
    RequestTable.rows3 uriRelaxed ++ RequestTable.rows4 uriRelaxed

/-- `done` leaves the loop with `fbreak`. -/
def httpParser (uriRelaxed : Bool) : Transducer Nat UInt8 Action where
  next := (httpParserTable uriRelaxed).next
  halts a := a == .done

end HCServer.Http
