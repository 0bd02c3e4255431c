import ObjectDiff.Dwarf
import ObjectDiff.CType
import ObjectDiff.Reconstruct
import ObjectDiff.Triple
import ObjectDiff.Invariants
import ObjectDiff.Termination
import ObjectDiff.Calls
import ObjectDiff.Members
import ObjectDiff.SymbolTable
import ObjectDiff.StaticCache
import ObjectDiff.Context
import ObjectDiff.Walker
import ObjectDiff.Library
import ObjectDiff.Growth
import ObjectDiff.FuncDiff
import ObjectDiff.Denotation
import ObjectDiff.Fidelity
import ObjectDiff.Report
import ObjectDiff.Filing
import ObjectDiff.Collection
