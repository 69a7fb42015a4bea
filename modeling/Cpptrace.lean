import Cpptrace.Unwind.Arrays
import Cpptrace.Unwind.Stepwise
import Cpptrace.FromCurrent.TryCatch
import Cpptrace.Symbols.Libdwarf
import Cpptrace.Formatting.Trace
import Cpptrace.Library.SortedLookup
import Cpptrace.Dwarf.CompileUnits
import Cpptrace.Dwarf.Inlines
import Cpptrace.Dwarf.SubprogramSymbol
import Cpptrace.Dwarf.LineTable
import Cpptrace.PruneSymbol.FunctionPointers
import Cpptrace.PruneSymbol.Lossless
import Cpptrace.PruneSymbol.Total
import Cpptrace.Utils.LruCache
import Cpptrace.Jit.Objects
import Cpptrace.Microfmt.Fields
import Cpptrace.CTrace.Print
import Cpptrace.Binary.StringTables
import Cpptrace.Binary.ByteOrder
import Cpptrace.FromCurrent.Rethrow
import Cpptrace.Binary.SafeDl
import Cpptrace.Binary.MachO
import Cpptrace.Binary.SymbolLookup
import Cpptrace.CTrace.Resolve
import Cpptrace.Snippets.Window
import Cpptrace.PruneSymbol.QuotedLiteral
import Cpptrace.Formatting.CharacterType
import Cpptrace.Formatting.DefaultArguments
import Cpptrace.Symbols.Addr2linePipe
import Cpptrace.Symbols.Addr2line
import Cpptrace.Platform.MemoryMapping
import Cpptrace.Snippets.Newlines
import Cpptrace.Snippets.Margins
import Cpptrace.Microfmt.Backtracking
import Cpptrace.Binary.DebugMap
import Cpptrace.Library.Numerals
import Cpptrace.Formatting.Indent
import Cpptrace.Library.Nesting
import Cpptrace.Formatting.AngleBrackets
import Cpptrace.Symbols.FillBlanks
import Cpptrace.Library.Mirrors
import Cpptrace.Binary.Media
import Cpptrace.Microfmt.Numerals
import Cpptrace.Microfmt.Widths
import Cpptrace.Library.Stopping
import Cpptrace.Dwarf.Walks
import Cpptrace.Utils.Trim
import Cpptrace.FromCurrent.Surgery
import Cpptrace.Dwarf.LineTables
import Cpptrace.Dwarf.DwarfResolver
import Cpptrace.Dwarf.Caching
import Cpptrace.Dwarf.Resolution
import Cpptrace.Symbols.Resolvers
import Cpptrace.Dwarf.DebugMapResolver
import Cpptrace.Library.Lifetimes
import Cpptrace.Utils.Optional
import Cpptrace.Utils.Result
import Cpptrace.Exceptions.LazyException
import Cpptrace.CTrace.Leaks
import Cpptrace.Symbols.Dbghelp
import Cpptrace.Formatting.Color
